import RegisterImage.Image.Records
import RegisterImage.Proofs.Image.Records

/-!
# The layout of headers

A built header is a lead with its own length, an info block, the records of the writes and a
seal. Where its records begin can be told from its length, so the writes are read back from it,
whatever follows it in a buffer.

## Main definitions

* `Info.Proper` — the info blocks that can be asked for.
* `length_headerBody` — the length of a header from the number of its writes.
* `buildHeader_of_fits`, `buildHeader_of_not_fits` — when there is a header.
* `RecordTable.ofBytes?_of_buildHeader` — the writes of a header are read back.
-/

namespace RegisterImage

/-! ## Info blocks -/

/-- A given text, the standard one in its place, or no text at all. -/
def Info.Proper (info : Info) : Prop :=
  info = .omitted ∨ ∃ text, info = .ofText text

theorem Info.length_textBytes {s : String} (h : s ≠ "") :
    textBytes s ≠ [] ∧ (textBytes s).length ≤ 16 := by
  have hs : s.toList ≠ [] := by simpa using h
  constructor
  · simpa [textBytes, maxLength] using hs
  · simp [textBytes, maxLength]

/-- A text that was given is not empty and takes at most 16 bytes. -/
theorem Info.Proper.bytes?_eq {info : Info} (h : info.Proper) (hne : info ≠ .omitted) :
    ∃ bs, info.bytes? = some bs ∧ bs ≠ [] ∧ bs.length ≤ 16 := by
  obtain ⟨text, rfl⟩ := h.resolve_left hne
  cases text with
  | none => exact ⟨_, rfl, Info.length_textBytes (by decide)⟩
  | some s =>
    by_cases hs : s = ""
    · subst hs
      exact ⟨_, rfl, Info.length_textBytes (by decide)⟩
    · have hempty : s.isEmpty = false := by simpa using hs
      refine ⟨textBytes s, ?_, Info.length_textBytes hs⟩
      simp [Info.ofText, hempty, Info.bytes?]

theorem length_infoBlock {info : Info} (h : info.Proper) (hasWrites : Bool) :
    (infoBlock info hasWrites).length = if info = .omitted ∧ hasWrites = false then 0 else 32 := by
  by_cases ho : info = .omitted
  · subst ho
    cases hasWrites <;> rfl
  · obtain ⟨bs, hbs, hne, hle⟩ := h.bytes?_eq ho
    simp [infoBlock, hbs, length_padTo_of_le 0 hne hle, ho]

/-! ## Lengths -/

theorem length_headerLead (chip : Chip) (length : UInt16) :
    (headerLead chip length).length = leadLength := by
  simp [headerLead, length_le16, chip.length_headerSignature, leadLength]

/-- The info block fills up to where the records of a header of its length begin. -/
theorem recordStart_header {info : Info} (hinfo : info.Proper) {plan : Plan}
    (hplan : ∀ w ∈ plan.writes, IsWidth w.size) :
    recordStart (leadLength + (headerBody info plan).length) =
      leadLength + (infoBlock info (!plan.writes.isEmpty)).length := by
  rw [headerBody, List.length_append, length_flatMap_encodeRecord hplan, length_infoBlock hinfo,
    recordStart, leadLength, recordLength]
  cases hw : plan.writes with
  | nil => by_cases ho : info = .omitted <;> simp [ho]
  | cons w ws =>
    simp
    omega

theorem length_headerBody {info : Info} (hinfo : info.Proper) {plan : Plan}
    (hplan : ∀ w ∈ plan.writes, IsWidth w.size) (hpos : 0 < plan.writes.length) :
    leadLength + (headerBody info plan).length = 48 + 8 * plan.writes.length := by
  have hne : plan.writes.isEmpty = false := by
    simpa using List.length_pos_iff.1 hpos
  rw [headerBody, List.length_append, length_flatMap_encodeRecord hplan, length_infoBlock hinfo,
    hne, leadLength, recordLength]
  simp
  omega

theorem length_headerBody_le {info : Info} (hinfo : info.Proper) {plan : Plan}
    (hplan : ∀ w ∈ plan.writes, IsWidth w.size) :
    leadLength + (headerBody info plan).length ≤ 48 + 8 * plan.writes.length := by
  rw [headerBody, List.length_append, length_flatMap_encodeRecord hplan, length_infoBlock hinfo,
    leadLength, recordLength]
  split <;> omega

/-! ## Building -/

theorem buildHeader_of_not_fits {chip : Chip} {info : Info} {plan : Plan}
    (h : 0x10000 ≤ leadLength + (headerBody info plan).length) :
    buildHeader chip info plan =
      .error (.headerTooLarge (leadLength + (headerBody info plan).length)) := by
  rw [buildHeader, if_neg (by omega)]

theorem buildHeader_of_fits (chip : Chip) {info : Info} {plan : Plan}
    (h : leadLength + (headerBody info plan).length < 0x10000) :
    ∃ built, buildHeader chip info plan = .ok built := by
  exact ⟨_, by rw [buildHeader, if_pos h]⟩

/-- The parts of a built header: the length in the lead is that of all before the seal. -/
theorem eq_of_buildHeader {chip : Chip} {info : Info} {plan : Plan} {built : Bytes}
    (h : buildHeader chip info plan = .ok built) :
    ∃ length header, header = headerLead chip length ++ headerBody info plan ∧
      header.length = length.toNat ∧ built = header ++ sealOf header := by
  dsimp only [buildHeader] at h
  split at h
  · rename_i hlt
    refine ⟨_, _, rfl, ?_, (Except.ok.inj h).symm⟩
    rw [List.length_append, length_headerLead, UInt16.toNat_ofNat_of_lt' hlt]
  · cases h

/-! ## Reading a header at the front of a buffer -/

theorem headerChip?_headerLead (chip : Chip) (length : UInt16) (bs : Bytes) :
    headerChip? (headerLead chip length ++ bs) = some chip := by
  have hsignature : ((headerLead chip length ++ bs).drop 6).take 10 = chip.headerSignature := by
    cases chip <;> rfl
  unfold headerChip?
  rw [hsignature]
  cases chip <;> decide

theorem declaredLength_headerLead (chip : Chip) (length : UInt16) (bs : Bytes) :
    declaredLength (headerLead chip length ++ bs) = length.toNat := by
  have hdrop : (headerLead chip length ++ bs).drop 4 =
      le16 length ++ (chip.headerSignature ++ bs) := by
    simp [headerLead]
  rw [declaredLength, hdrop, readLe16?_append, Option.getD_some]

theorem checksumHolds_sealOf (header bs : Bytes) :
    checksumHolds (header ++ (sealOf header ++ bs)) header.length = true := by
  simp [checksumHolds, sealOf]

theorem crcHolds_sealOf (header bs : Bytes) :
    crcHolds (header ++ (sealOf header ++ bs)) header.length = true := by
  have hdrop : (header ++ (sealOf header ++ bs)).drop (header.length + 1) =
      le32 (crc32 header) ++ bs := by
    simp [sealOf, List.drop_append]
  simp [crcHolds, hdrop, readLe32?_append]

/-- A header that was built for a plan is read back as a table of the writes of the plan. -/
theorem RecordTable.ofBytes?_of_buildHeader {chip : Chip} {info : Info} (hinfo : info.Proper)
    {plan : Plan} (hplan : plan.Encodable) {built : Bytes}
    (h : buildHeader chip info plan = .ok built) (bs : Bytes) :
    RecordTable.ofBytes? (built ++ bs) =
      .ok (some ⟨chip, built.length - 5, true, true, plan.writes⟩) := by
  obtain ⟨length, header, hheader, hlength, rfl⟩ := eq_of_buildHeader h
  have hwidth : ∀ w ∈ plan.writes, IsWidth w.size := fun w hw => (hplan.writes w hw).isWidth
  have hsum : length.toNat = leadLength + (headerBody info plan).length := by
    rw [← hlength, hheader, List.length_append, length_headerLead]
  have hdata : header ++ sealOf header ++ bs =
      headerLead chip length ++ (headerBody info plan ++ (sealOf header ++ bs)) := by
    simp [hheader]
  have hstart : recordStart length.toNat =
      leadLength + (infoBlock info (!plan.writes.isEmpty)).length := by
    rw [hsum, recordStart_header hinfo hwidth]
  have hdrop : (header ++ sealOf header ++ bs).drop (recordStart length.toNat) =
      plan.writes.flatMap encodeRecord ++ (sealOf header ++ bs) := by
    rw [hdata, hstart, ← List.drop_drop, List.drop_left' (length_headerLead chip length),
      headerBody, List.append_assoc, List.drop_left]
  have hroom : length.toNat - recordStart length.toNat = recordLength * plan.writes.length := by
    rw [hstart, hsum, headerBody, List.length_append, length_flatMap_encodeRecord hwidth]
    omega
  have hdecode : RecordTable.decode chip (header ++ sealOf header ++ bs) length.toNat =
      .ok ⟨chip, length.toNat, true, true, plan.writes⟩ := by
    have hchecksum := checksumHolds_sealOf header bs
    have hcrc := crcHolds_sealOf header bs
    rw [hlength, ← List.append_assoc] at hchecksum hcrc
    simp only [RecordTable.decode, hdrop, hroom, bind, Except.bind,
      decodeRecords_flatMap_encodeRecord hplan.writes, hchecksum, hcrc]
    rfl
  have hchip : headerChip? (header ++ sealOf header ++ bs) = some chip := by
    rw [hdata, headerChip?_headerLead]
  have hdeclared : declaredLength (header ++ sealOf header ++ bs) = length.toNat := by
    rw [hdata, declaredLength_headerLead]
  have hbounds : 16 ≤ length.toNat ∧
      length.toNat + 5 ≤ (header ++ sealOf header ++ bs).length := by
    simp only [List.length_append, length_sealOf, hlength, hsum, leadLength]
    omega
  have hbuilt : (header ++ sealOf header).length - 5 = length.toNat := by
    simp [length_sealOf, hlength]
  simp only [RecordTable.ofBytes?, hchip, hdeclared, if_pos hbounds, hdecode, hbuilt]

end RegisterImage
