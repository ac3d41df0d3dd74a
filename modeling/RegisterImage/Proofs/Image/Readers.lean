import RegisterImage.Proofs.Image.FromHeader
import RegisterImage.Proofs.Image.Parts

/-!
# Images and tables of one buffer

An image and the table of its header are read from one buffer, by checks that are not the same: an
image needs room for its body and its seals, a table only for its header. Both readers see one chip
and one header.

## Main definitions

* `reportedChip?` — the chip that a reader reports, with what it finds or as malformed.
* `ContainerFault.recordOffset?` — the record that a fault is about.
* `RecordTable.reportedChip?_ofBytes?`, `SpiImage.reportedChip?_ofBytes?` — which chip each reader
  reports.
* `readers_agree` — the chip, the header and the seals of a table are those of the image.
-/

namespace RegisterImage

variable {data : Bytes} {chip : Chip}

/-- The chip of what was found in a buffer, or of what is malformed in it. -/
def reportedChip? {α : Type} (chipOf : α → Chip) : Except Error (Option α) → Option Chip
  | .ok found? => found?.map chipOf
  | .error (.container chip _) => some chip
  | .error _ => none

/-! ## Faults of records -/

def ContainerFault.recordOffset? : ContainerFault → Option Nat
  | invalidMarker offset | invalidOpcode offset _ | truncatedValue offset => some offset
  | invalidHeaderLength _ | bodySizeMissing | bodyOverrun .. | footerMissing => none

theorem recordOffset?_of_decodeRecord {bs : Bytes} {room offset : Nat} {fault : ContainerFault}
    (h : decodeRecord bs room offset = .error fault) : fault.recordOffset? = some offset := by
  unfold decodeRecord at h
  split at h
  · split at h
    · split at h
      · cases h
      · obtain rfl := Except.error.inj h
        rfl
    · simp only at h
      split at h
      · split at h
        · cases h
        · obtain rfl := Except.error.inj h
          rfl
      · obtain rfl := Except.error.inj h
        rfl
  · obtain rfl := Except.error.inj h
    rfl

/-- By induction on the strides: a run fails in one of them. -/
theorem recordOffset?_of_decodeRecords {bs : Bytes} {room offset : Nat} {fault : ContainerFault}
    (h : decodeRecords bs room offset = .error fault) :
    ∃ p, fault.recordOffset? = some p ∧ offset ≤ p ∧ p + 4 ≤ offset + room := by
  induction bs, room, offset using decodeRecords.induct with
  | case1 bs room offset hroom ih =>
    rcases (decodeRecords_eq_error_iff hroom).1 h with hfirst | ⟨write?, -, hmore⟩
    · exact ⟨offset, recordOffset?_of_decodeRecord hfirst, le_rfl, by omega⟩
    · obtain ⟨p, hp, hle, hend⟩ := ih hmore
      rw [recordLength] at hle hend
      exact ⟨p, hp, by omega, by omega⟩
  | case2 bs room offset hroom =>
    rw [decodeRecords, if_neg hroom] at h
    cases h

/-! ## What each reader reports -/

theorem RecordTable.reportedChip?_ofBytes? (data : Bytes) :
    reportedChip? RecordTable.chip (ofBytes? data) =
      if 16 ≤ declaredLength data ∧ declaredLength data + 5 ≤ data.length then headerChip? data
      else none := by
  unfold ofBytes?
  cases headerChip? data with
  | none => simp [reportedChip?]
  | some chip =>
    simp only
    split
    · cases hdecode : decode chip data (declaredLength data) with
      | error fault => rfl
      | ok table =>
        obtain ⟨writes, -, rfl⟩ := decode_eq_ok_iff.1 hdecode
        rfl
    · rfl

theorem RecordTable.exists_reportedChip? (h : ofBytes? data ≠ .ok none) :
    ∃ chip, reportedChip? RecordTable.chip (ofBytes? data) = some chip := by
  cases hfound : ofBytes? data with
  | ok table? =>
    cases table? with
    | none => exact absurd hfound h
    | some table => exact ⟨table.chip, rfl⟩
  | error error =>
    obtain ⟨chip, fault, -, -, -, -, rfl⟩ := ofBytes?_eq_error_iff.1 hfound
    exact ⟨chip, rfl⟩

theorem SpiImage.reportedChip?_ofBytes? (data : Bytes) :
    reportedChip? SpiImage.chip (ofBytes? data) =
      if data.length < minLength then none else headerChip? data := by
  unfold ofBytes?
  split
  · rfl
  · cases headerChip? data with
    | none => rfl
    | some chip =>
      cases hdecode : decode chip data with
      | error fault => simp only [hdecode]; rfl
      | ok image =>
        obtain ⟨-, size, -, -, rfl⟩ := decode_eq_ok_iff.1 hdecode
        simp only [hdecode]
        rfl

/-! ## Agreement -/

/-- The table of an image's header. -/
structure RecordTable.IsOf (table : RecordTable) (image : SpiImage) : Prop where
  chip_eq : table.chip = image.chip
  headerLength_eq : table.headerLength = image.header.length
  checksumOk_eq : table.checksumOk = image.headerChecksumOk
  crcOk_eq : table.crcOk = image.headerCrcOk

/-- A fault in a record of an image's header. -/
def SpiImage.IsRecordFault (image : SpiImage) (error : Error) : Prop :=
  ∃ fault offset, error = .container image.chip fault ∧
    fault.recordOffset? = some offset ∧ offset + 4 ≤ image.header.length

section Image

variable {size : UInt32} (h : SpiImage.Holds data chip size)
include h

theorem SpiImage.Holds.isRecordFault {error : Error}
    (herror : RecordTable.ofBytes? data = .error error) :
    (parts chip data (declaredLength data) size.toNat).IsRecordFault error := by
  obtain ⟨chip', fault, hchip, -, -, hdecode, rfl⟩ := RecordTable.ofBytes?_eq_error_iff.1 herror
  obtain rfl := Option.some.inj (hchip.symm.trans h.chip_eq)
  obtain ⟨offset, hoffset, hstart, hend⟩ :=
    recordOffset?_of_decodeRecords (RecordTable.decode_eq_error_iff.1 hdecode)
  refine ⟨fault, offset, rfl, hoffset, ?_⟩
  rw [h.length_header]
  have := RecordTable.recordStart_cases (declaredLength data)
  have hlead := h.lead_le
  omega

theorem SpiImage.Holds.isOf {table : RecordTable}
    (htable : RecordTable.ofBytes? data = .ok (some table)) :
    table.IsOf (parts chip data (declaredLength data) size.toNat) := by
  obtain ⟨chip', hchip, -, -, hdecode⟩ := RecordTable.ofBytes?_eq_ok_some_iff.1 htable
  obtain rfl := Option.some.inj (hchip.symm.trans h.chip_eq)
  obtain ⟨writes, -, rfl⟩ := RecordTable.decode_eq_ok_iff.1 hdecode
  exact ⟨rfl, h.length_header.symm, rfl, rfl⟩

end Image

/-- The two readers agree on every buffer. With an image there is its table, or a fault in one of
its records; with a table or a fault in one there is an image of the same chip, or a fault in one,
unless the buffer has less than 32 bytes. -/
theorem readers_agree (data : Bytes) :
    (∀ image, SpiImage.ofBytes? data = .ok (some image) →
      RecordTable.ofBytes? data ≠ .ok none ∧
      (∀ error, RecordTable.ofBytes? data = .error error → image.IsRecordFault error) ∧
      ∀ table, RecordTable.ofBytes? data = .ok (some table) → table.IsOf image) ∧
    (RecordTable.ofBytes? data ≠ .ok none →
      ∃ chip, reportedChip? RecordTable.chip (RecordTable.ofBytes? data) = some chip ∧
        (reportedChip? SpiImage.chip (SpiImage.ofBytes? data) = some chip ∨
          data.length < SpiImage.minLength ∧ SpiImage.ofBytes? data = .ok none)) := by
  constructor
  · intro image himage
    obtain ⟨chip, size, hholds, rfl⟩ := SpiImage.ofBytes?_eq_ok_some_iff.1 himage
    have hroom := hholds.room
    have hreported := RecordTable.reportedChip?_ofBytes? data
    rw [if_pos ⟨hholds.lead_le, by omega⟩, hholds.chip_eq] at hreported
    refine ⟨fun hnone => ?_, fun error => hholds.isRecordFault, fun table => hholds.isOf⟩
    rw [hnone] at hreported
    cases hreported
  · intro hfound
    obtain ⟨chip, hreported⟩ := RecordTable.exists_reportedChip? hfound
    refine ⟨chip, hreported, ?_⟩
    by_cases hshort : data.length < SpiImage.minLength
    · exact .inr ⟨hshort, if_pos hshort⟩
    · rw [RecordTable.reportedChip?_ofBytes?] at hreported
      rw [SpiImage.reportedChip?_ofBytes?, if_neg hshort]
      split at hreported
      · exact .inl hreported
      · cases hreported

/-- An image with a record of a wrong size, one with a sound record and wrong seals, a header
without a body, and a header in a buffer that is too short for an image. -/
theorem readers_agree_of_damaged_and_short :
    let rest : Bytes := [1, 2, 3, 4, 5] ++ le32 3 ++ [7, 8, 9] ++ List.replicate 13 0
    let broken : Bytes := headerLead .prom 24 ++ [0xCC, 0x13, 0, 4, 0, 0, 0, 0] ++ rest
    let sound : Bytes := headerLead .prom21 24 ++ [0xCC, 0x12, 0, 4, 0x55, 1, 0, 0] ++ rest
    let bodiless : Bytes := headerLead .promLP 32 ++ List.replicate 21 0
    let short : Bytes := headerLead .prom 16 ++ List.replicate 5 0
    (∃ image, SpiImage.ofBytes? broken = .ok (some image) ∧
      image.IsRecordFault (.container .prom (.invalidOpcode 16 3))) ∧
    (∃ image table, SpiImage.ofBytes? sound = .ok (some image) ∧
      RecordTable.ofBytes? sound = .ok (some table) ∧ table.IsOf image) ∧
    reportedChip? RecordTable.chip (RecordTable.ofBytes? bodiless) =
      reportedChip? SpiImage.chip (SpiImage.ofBytes? bodiless) ∧
    RecordTable.ofBytes? short ≠ .ok none ∧ SpiImage.ofBytes? short = .ok none := by
  intro rest broken sound bodiless short
  have hbroken : SpiImage.Holds broken .prom 3 := by
    constructor <;> decide +kernel
  have hsound : SpiImage.Holds sound .prom21 3 := by
    constructor <;> decide +kernel
  have hbrokenImage := SpiImage.ofBytes?_eq_ok_some_iff.2 ⟨_, _, hbroken, rfl⟩
  have hsoundImage := SpiImage.ofBytes?_eq_ok_some_iff.2 ⟨_, _, hsound, rfl⟩
  have herror : RecordTable.ofBytes? broken = .error (.container .prom (.invalidOpcode 16 3)) := by
    decide +kernel
  have htable : RecordTable.ofBytes? sound =
      .ok (some ⟨.prom21, 24, false, false, [⟨1, 0x400, 0x155, 2⟩]⟩) := by
    decide +kernel
  have hbodiless : RecordTable.ofBytes? bodiless ≠ .ok none := by decide +kernel
  have hshort : RecordTable.ofBytes? short ≠ .ok none := by decide +kernel
  refine ⟨⟨_, hbrokenImage, ((readers_agree broken).1 _ hbrokenImage).2.1 _ herror⟩,
    ⟨_, _, hsoundImage, htable, ((readers_agree sound).1 _ hsoundImage).2.2 _ htable⟩,
    ?_, hshort, ?_⟩
  · obtain ⟨chip, hreported, himage | ⟨hless, -⟩⟩ := (readers_agree bodiless).2 hbodiless
    · exact hreported.trans himage.symm
    · exact absurd hless (by decide +kernel)
  · obtain ⟨chip, -, himage | ⟨-, hnone⟩⟩ := (readers_agree short).2 hshort
    · exact absurd himage (by rw [SpiImage.reportedChip?_ofBytes?, if_pos (by decide)]; simp)
    · exact hnone

end RegisterImage
