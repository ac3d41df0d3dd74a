import RegisterImage.Image.Build
import RegisterImage.Proofs.Access.Capsule
import RegisterImage.Proofs.Image.RoundTrip

/-!
# Firmware from capsules

Which record of a capsule an image is made from, and what is in the image. The room that is kept
for footer, seals and padding is enough, so that an image never exceeds its chip.

## Main definitions

* `Usable` — a record that an image is made from.
* `extracted` — the image of a usable record.
* `attempt_image?_eq_some_iff` — one record.
* `extract?_first_usable` — a whole capsule.
-/

namespace RegisterImage

/-! ## Marks and versions -/

theorem occurs_iff (needle bs : Bytes) : occurs needle bs = true ↔ needle <:+: bs := by
  induction bs with
  | nil => simp [occurs, List.infix_nil]
  | cons b bs ih => simp [occurs, List.infix_cons_iff, ih]

theorem FirmwareInfo.ofBytes?_eq_some_iff {bs : Bytes} {dateOffset : Nat} {info : FirmwareInfo} :
    ofBytes? bs dateOffset = some info ↔
      ∃ chip, Chip.all.find? (fun chip => chip.firmwareSignature <:+: bs) = some chip ∧
        info = ⟨chip, dateText? (bs.drop dateOffset), chip.maxFirmwareSize⟩ := by
  have hmark (chip : Chip) : occurs chip.firmwareSignature bs =
      decide (chip.firmwareSignature <:+: bs) := by
    rw [Bool.eq_iff_iff, occurs_iff, decide_eq_true_eq]
  simp only [ofBytes?, hmark, Option.map_eq_some_iff]
  exact exists_congr fun chip => and_congr_right' eq_comm

theorem Chip.mem_all (chip : Chip) : chip ∈ all := by
  cases chip <;> decide

theorem FirmwareInfo.ofBytes?_eq_none_iff {bs : Bytes} {dateOffset : Nat} :
    ofBytes? bs dateOffset = none ↔ ∀ chip : Chip, ¬chip.firmwareSignature <:+: bs := by
  simp [ofBytes?, occurs_iff, Chip.mem_all]

theorem dateText?_append {bs : Bytes} {date : String} (h : dateText? bs = some date)
    (rest : Bytes) : dateText? (bs ++ rest) = some date := by
  match bs, h with
  | _ :: _ :: _ :: _ :: _ :: _ :: _, h => exact h

theorem exists_dateText? {bs : Bytes} (h : 6 ≤ bs.length) : ∃ date, dateText? bs = some date := by
  match bs with
  | _ :: _ :: _ :: _ :: _ :: _ :: _ => exact ⟨_, rfl⟩
  | [] | [_] | [_, _] | [_, _, _] | [_, _, _, _] | [_, _, _, _, _] => simp at h

/-! ## One record -/

/-- A record that an image is made from, with its chip and the header of the image. -/
structure Usable (plan : Plan) (request : BuildRequest) (record : Bytes) (chip : Chip)
    (header : Bytes) : Prop where
  find_chip : Chip.all.find? (fun chip => chip.firmwareSignature <:+: record) = some chip
  sum : request.ignoreChecksum = true ∨
    readLe32? (record.drop 8) = some (byteSum (summedPart record))
  buildHeader : buildHeader chip request.info plan = .ok header
  room : envelopeLength + header.length ≤ min 0x20000 (record.length - capsuleLead)

/-- The body that a record leaves for an image with a header. -/
def extractedBody (record header : Bytes) : Bytes :=
  (record.drop capsuleLead).take
    (min 0x20000 (record.length - capsuleLead) - (envelopeLength + header.length))

/-- The image that is made from a record. -/
def extracted (request : BuildRequest) (record : Bytes) (chip : Chip) (header : Bytes) :
    BuiltImage where
  name := outputName request.profileName
    ((dateText? (record.drop capsuleDateOffset)).getD FirmwareInfo.unknownDate)
  chip
  data := buildImage chip header (extractedBody record header)

section Record

variable {plan : Plan} {request : BuildRequest} {record : Bytes} {chip : Chip} {header : Bytes}

/-- Whether the sum of a record keeps it from being used. -/
theorem not_badChecksum_iff (request : BuildRequest) (hlead : capsuleLead ≤ record.length) :
    ¬(storedSum record ≠ byteSum (summedPart record) ∧ !request.ignoreChecksum) ↔
      request.ignoreChecksum = true ∨
        readLe32? (record.drop 8) = some (byteSum (summedPart record)) := by
  have hword : readLe32? (record.drop 8) = some (storedSum record) :=
    readLe32?_of_le (by rw [List.length_drop]; rw [capsuleLead] at hlead; omega)
  rw [hword, Option.some.injEq]
  cases request.ignoreChecksum <;> simp

theorem attempt_image?_eq_some_iff (hlead : capsuleLead ≤ record.length) {image : BuiltImage} :
    (attempt plan request record).image? = some image ↔
      ∃ chip header, Usable plan request record chip header ∧
        image = extracted request record chip header := by
  have hsum := not_badChecksum_iff request hlead
  constructor
  · intro h
    unfold attempt at h
    split at h
    · cases h
    · rename_i info hinfo
      obtain ⟨chip, hchip, rfl⟩ := FirmwareInfo.ofBytes?_eq_some_iff.1 hinfo
      split at h
      · cases h
      · rename_i hgood
        split at h
        · cases h
        · rename_i header hheader
          dsimp only at h
          split at h
          · cases h
          · rename_i hroom
            exact ⟨chip, header, ⟨hchip, hsum.1 hgood, hheader, Nat.not_lt.1 hroom⟩,
              (Option.some.inj h).symm⟩
  · rintro ⟨chip, header, h, rfl⟩
    have hinfo : FirmwareInfo.ofBytes? record capsuleDateOffset = some _ :=
      FirmwareInfo.ofBytes?_eq_some_iff.2 ⟨chip, h.find_chip, rfl⟩
    have hroom : ¬bodyRoom chip record < envelopeLength + header.length := Nat.not_lt.2 h.room
    simp only [attempt, hinfo, if_neg (hsum.2 h.sum), h.buildHeader, if_neg hroom]
    rfl

theorem length_extractedBody (hroom : envelopeLength + header.length ≤
    min 0x20000 (record.length - capsuleLead)) :
    header.length + (extractedBody record header).length + envelopeLength =
      min 0x20000 (record.length - capsuleLead) := by
  rw [extractedBody, List.length_take_of_le (by rw [List.length_drop]; omega)]
  omega

/-- The whole image takes two bytes less than the room, before it is filled up. -/
theorem length_extracted_data (h : Usable plan request record chip header) :
    (extracted request record chip header).data.length % 16 = 0 ∧
      (extracted request record chip header).data.length ≤ 0x20000 := by
  have hbody := length_extractedBody h.room
  refine ⟨length_padTo_mod (by decide) .., length_padTo_le (by decide) _ (by decide) ?_⟩
  simp only [List.length_append, length_le32, length_sealOf, chip.length_firmwareSignature]
  rw [envelopeLength] at hbody
  omega

/-- The version of a record stands in the body at the place for one of an image. -/
theorem exists_date_of_extracted (h : Usable plan request record chip header)
    (hlong : 0x86 ≤ (extractedBody record header).length)
    (hmark : ∃ chip : Chip, chip.firmwareSignature <:+: extractedBody record header) :
    ∃ date image info,
      (extracted request record chip header).name = outputName request.profileName date ∧
      SpiImage.ofBytes? (extracted request record chip header).data = .ok (some image) ∧
      image.firmware = some info ∧ info.date = some date := by
  have hbody : (extractedBody record header).length < 2 ^ 32 := by
    have hlength := length_extractedBody h.room
    omega
  obtain ⟨date, hdate⟩ : ∃ date, dateText? ((extractedBody record header).drop 0x80) = some date :=
    exists_dateText? (by rw [List.length_drop]; omega)
  have hrecord : dateText? (record.drop capsuleDateOffset) = some date := by
    rw [show capsuleDateOffset = capsuleLead + 0x80 from rfl, ← List.drop_drop]
    obtain ⟨rest, hrest⟩ : extractedBody record header <+: record.drop capsuleLead :=
      List.take_prefix ..
    rw [← hrest, List.drop_append_of_le_length (by omega)]
    exact dateText?_append hdate rest
  obtain ⟨chip', hfind⟩ : ∃ chip', Chip.all.find?
      (fun chip => chip.firmwareSignature <:+: extractedBody record header) = some chip' := by
    rw [← Option.isSome_iff_exists, List.find?_isSome]
    obtain ⟨chip', hchip'⟩ := hmark
    exact ⟨chip', chip'.mem_all, by simpa using hchip'⟩
  refine ⟨date, _, _, ?_, SpiImage.ofBytes?_buildImage h.buildHeader hbody,
    FirmwareInfo.ofBytes?_eq_some_iff.2 ⟨chip', hfind, rfl⟩, hdate⟩
  simp only [extracted, hrecord, Option.getD_some]

end Record

/-! ## Capsules -/

/-- There is an image exactly when a record is usable, and it is that of the first such record,
whatever the buffer holds. -/
theorem extract?_first_usable (data : Bytes) (plan : Plan) (request : BuildRequest) :
    ((∃ image, extract? data plan request = some image) ↔
      ∃ r ∈ capsuleRecords data, ∃ chip header, Usable plan request r.2 chip header) ∧
    ∀ image, extract? data plan request = some image →
      ∃ before r after chip header, capsuleRecords data = before ++ r :: after ∧
        (∀ r' ∈ before, ∀ chip' header', ¬Usable plan request r'.2 chip' header') ∧
        Usable plan request r.2 chip header ∧ image = extracted request r.2 chip header ∧
        image.data.length % 16 = 0 ∧ image.data.length ≤ 0x20000 ∧
        (0x86 ≤ (extractedBody r.2 header).length →
          (∃ chip' : Chip, chip'.firmwareSignature <:+: extractedBody r.2 header) →
          ∃ date spi info, image.name = outputName request.profileName date ∧
            SpiImage.ofBytes? image.data = .ok (some spi) ∧
            spi.firmware = some info ∧ info.date = some date) := by
  have hlead : ∀ r ∈ capsuleRecords data, capsuleLead ≤ r.2.length := fun r hr =>
    (length_of_mem_capsuleScan hr).1
  constructor
  · rw [← Option.isSome_iff_exists, extract?, List.findSome?_isSome_iff]
    refine exists_congr fun r => and_congr_right fun hr => ?_
    simp only [Option.isSome_iff_exists, attempt_image?_eq_some_iff (hlead r hr)]
    exact ⟨fun ⟨_, chip, header, h, _⟩ => ⟨chip, header, h⟩,
      fun ⟨chip, header, h⟩ => ⟨_, chip, header, h, rfl⟩⟩
  · intro image himage
    obtain ⟨before, r, after, hrecords, hfirst, hbefore⟩ := List.findSome?_eq_some_iff.1 himage
    have hmem : ∀ r' ∈ before, r' ∈ capsuleRecords data := fun r' hr' =>
      hrecords ▸ List.mem_append_left _ hr'
    have hr : r ∈ capsuleRecords data := by simp [hrecords]
    obtain ⟨chip, header, h, rfl⟩ := (attempt_image?_eq_some_iff (hlead r hr)).1 hfirst
    obtain ⟨hmod, hle⟩ := length_extracted_data h
    refine ⟨before, r, after, chip, header, hrecords, fun r' hr' chip' header' h' => ?_, h, rfl,
      hmod, hle, exists_date_of_extracted h⟩
    have hsome := (attempt_image?_eq_some_iff (hlead r' (hmem r' hr'))).2 ⟨chip', header', h', rfl⟩
    rw [hbefore r' hr'] at hsome
    cases hsome

/-- The sum of the first record is wrong; the second is used, and its version is kept. -/
theorem extract?_second_record :
    let bad : Bytes := capsuleMark ++ le32 72 ++ le32 1 ++ Chip.prom.firmwareSignature ++
      List.replicate 52 0
    let good : Bytes := capsuleMark ++ le32 256 ++ le32 642 ++ Chip.prom19.firmwareSignature ++
      List.replicate 120 0 ++ [0x24, 0x01, 0x31, 0x0A, 0x0B, 0x0C] ++ List.replicate 110 0
    let request : BuildRequest := ⟨.omitted, "board 7", false⟩
    capsuleRecords (bad ++ good) = [(0, bad), (72, good)] ∧
    ∃ image, extract? (bad ++ good) Plan.empty request = some image ∧
      image.chip = .prom19 ∧ image.data.length % 16 = 0 ∧ image.data.length ≤ 0x20000 ∧
      ∃ date spi info, image.name = outputName "board 7" date ∧
        SpiImage.ofBytes? image.data = .ok (some spi) ∧ spi.firmware = some info ∧
        info.date = some date := by
  intro bad good request
  have hbad : capsuleLength? (bad ++ good) = some 72 := by decide +kernel
  have hgood : capsuleLength? good = some 256 := by decide +kernel
  have hlength : bad.length = 72 := by decide +kernel
  have hlength' : good.length = 256 := by decide +kernel
  have hrecords : capsuleRecords (bad ++ good) = [(0, bad), (72, good)] := by
    rw [capsuleRecords, capsuleScan_of_record hbad, List.take_left' hlength,
      List.drop_left' hlength, capsuleScan_of_record hgood, List.take_of_length_le hlength'.le,
      List.drop_eq_nil_of_le hlength'.le, capsuleScan]
  obtain ⟨header, hheader, hshort⟩ : ∃ header,
      buildHeader .prom19 .omitted Plan.empty = .ok header ∧ header.length = 21 :=
    ⟨_, rfl, by decide +kernel⟩
  have hbody : extractedBody good header = (good.drop 12).take 204 := by
    rw [extractedBody, hshort, hlength']
    rfl
  have husable : Usable Plan.empty request good .prom19 header :=
    ⟨by decide +kernel, .inr (by decide +kernel), hheader, by
      rw [hshort, hlength']
      decide +kernel⟩
  have hunusable (chip : Chip) (header : Bytes) : ¬Usable Plan.empty request bad chip header :=
    fun h => absurd h.sum (by decide +kernel)
  obtain ⟨hiff, hfirst⟩ := extract?_first_usable (bad ++ good) Plan.empty request
  rw [hrecords] at hiff hfirst
  obtain ⟨image, himage⟩ := hiff.2 ⟨(72, good), by simp, .prom19, header, husable⟩
  obtain ⟨before, r, after, chip, header', hsplit, -, hr, rfl, hmod, hle, hdate⟩ :=
    hfirst image himage
  have hmem : r ∈ [(0, bad), (72, good)] := by simp [hsplit]
  rw [List.mem_pair] at hmem
  rcases hmem with rfl | rfl
  · exact absurd hr (hunusable chip header')
  · obtain rfl := Option.some.inj (hr.find_chip.symm.trans husable.find_chip)
    obtain rfl := Except.ok.inj (hr.buildHeader.symm.trans hheader)
    rw [hbody] at hdate
    exact ⟨hrecords, _, himage, rfl, hmod, hle,
      hdate (by decide +kernel) ⟨.prom19, by decide +kernel⟩⟩

end RegisterImage
