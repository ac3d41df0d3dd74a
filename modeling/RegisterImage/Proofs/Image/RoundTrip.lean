import RegisterImage.Image.Build
import RegisterImage.Proofs.Image.Header

/-!
# Images are read back

An image that was built around a header and a body is decoded to an intact image with the same
header and body, and its header to the table of the writes of the plan.

## Main definitions

* `SpiImage.ofBytes?_buildImage` — a built image is decoded to its parts.
* `buildHeader_readBack` — when there is a header for a plan, and that it is read back.
-/

namespace RegisterImage

/-- The parts that a built image is decoded to. -/
def SpiImage.built (chip : Chip) (header body : Bytes) : SpiImage where
  chip
  header
  headerChecksumOk := true
  headerCrcOk := true
  body
  footer := chip.firmwareSignature
  storedChecksum := checksum8 body
  storedCrc := crc32 body
  firmware := FirmwareInfo.ofBytes? body dateOffset

theorem SpiImage.isIntact_built (chip : Chip) (header body : Bytes) :
    (built chip header body).isIntact = true := by
  simp [isIntact, built, footerOk, checksumOk, crcOk]

/-- The bytes of an image and those that follow it. -/
def SpiImage.layout (chip : Chip) (header body rest : Bytes) : Bytes :=
  header ++ (sealOf header ++ (le32 (UInt32.ofNat body.length) ++
    (body ++ (chip.firmwareSignature ++ (sealOf body ++ rest)))))

theorem prefix_buildImage (chip : Chip) (header body : Bytes) :
    header <+: buildImage chip header body := by
  simp only [buildImage, padTo, List.append_assoc]
  exact List.prefix_append ..

theorem buildImage_eq_layout (chip : Chip) (header body : Bytes) :
    ∃ k, buildImage chip (header ++ sealOf header) body =
      SpiImage.layout chip header body (List.replicate k 0xFF) := by
  obtain ⟨k, hk⟩ := padTo_eq_append 16 0xFF (header ++ sealOf header ++
    le32 (UInt32.ofNat body.length) ++ body ++ chip.firmwareSignature ++ sealOf body)
  refine ⟨k, ?_⟩
  rw [buildImage, hk, SpiImage.layout]
  simp only [List.append_assoc]

theorem SpiImage.decode_layout {chip : Chip} {header : Bytes} (hlead : 16 ≤ header.length)
    {body : Bytes} (hbody : body.length < 2 ^ 32) {rest : Bytes}
    (hdeclared : declaredLength (layout chip header body rest) = header.length) :
    decode chip (layout chip header body rest) = .ok (built chip header body) := by
  have hsignature := chip.length_firmwareSignature
  have hsize : (UInt32.ofNat body.length).toNat = body.length := UInt32.toNat_ofNat_of_lt' hbody
  -- The parts of the buffer after the header, each reached by dropping the ones before it.
  have hafterSeal : (layout chip header body rest).drop (header.length + 5) =
      le32 (UInt32.ofNat body.length) ++
        (body ++ (chip.firmwareSignature ++ (sealOf body ++ rest))) := by
    rw [layout, ← List.drop_drop, List.drop_left, List.drop_left' (length_sealOf header)]
  have hafterSize : (layout chip header body rest).drop (header.length + 9) =
      body ++ (chip.firmwareSignature ++ (sealOf body ++ rest)) := by
    rw [show header.length + 9 = header.length + 5 + 4 from rfl, ← List.drop_drop, hafterSeal,
      List.drop_left' (length_le32 _)]
  have hfooter : (chip.firmwareSignature ++ (sealOf body ++ rest)).take 8 =
      chip.firmwareSignature := List.take_left' hsignature
  have hseal : (chip.firmwareSignature ++ (sealOf body ++ rest)).drop 8 = sealOf body ++ rest :=
    List.drop_left' hsignature
  have hcrc : (chip.firmwareSignature ++ (sealOf body ++ rest)).drop 9 =
      le32 (crc32 body) ++ rest := by
    rw [show 9 = 8 + 1 from rfl, ← List.drop_drop, hseal]
    rfl
  have hheader : (layout chip header body rest).take header.length = header := List.take_left
  have hchecksumHolds : checksumHolds (layout chip header body rest) header.length = true :=
    checksumHolds_sealOf ..
  have hcrcHolds : crcHolds (layout chip header body rest) header.length = true :=
    crcHolds_sealOf ..
  have hwhole : ¬(header.length < 16 ∨
      (layout chip header body rest).length < header.length) := by
    rw [layout, List.length_append]
    omega
  have hroom : ¬(body ++ (chip.firmwareSignature ++ (sealOf body ++ rest))).length <
      body.length := by
    rw [List.length_append]
    omega
  have hend : ¬(chip.firmwareSignature ++ (sealOf body ++ rest)).length < 13 := by
    rw [List.length_append, List.length_append, hsignature, length_sealOf]
    omega
  simp only [decode, hdeclared, if_neg hwhole, hafterSeal, readLe32?_append, hafterSize, hsize,
    if_neg hroom, List.drop_left, if_neg hend, List.take_left, hfooter, hseal, hcrc, hheader,
    hchecksumHolds, hcrcHolds]
  rfl

/-- A built image is decoded to the parts that it was built from. -/
theorem SpiImage.ofBytes?_buildImage {chip : Chip} {info : Info} {plan : Plan} {header : Bytes}
    (h : buildHeader chip info plan = .ok header) {body : Bytes} (hbody : body.length < 2 ^ 32) :
    ofBytes? (buildImage chip header body) =
      .ok (some (built chip (header.take (header.length - 5)) body)) := by
  obtain ⟨length, lead, hlead, hlength, rfl⟩ := eq_of_buildHeader h
  obtain ⟨k, himage⟩ := buildImage_eq_layout chip lead body
  have hmin : 16 ≤ lead.length := by
    rw [hlead, List.length_append, length_headerLead]
    exact Nat.le_add_right ..
  have hlong : ¬(layout chip lead body (List.replicate k 0xFF)).length < minLength := by
    simp only [layout, List.length_append, length_sealOf, length_le32,
      chip.length_firmwareSignature, minLength]
    omega
  have hchip : headerChip? (layout chip lead body (List.replicate k 0xFF)) = some chip := by
    rw [layout, hlead, List.append_assoc, headerChip?_headerLead]
  have hdeclared : declaredLength (layout chip lead body (List.replicate k 0xFF)) =
      lead.length := by
    rw [layout, hlength, hlead, List.append_assoc, declaredLength_headerLead]
  have hpart : (lead ++ sealOf lead).take ((lead ++ sealOf lead).length - 5) = lead := by
    rw [List.length_append, length_sealOf, Nat.add_sub_cancel, List.take_left]
  simp only [himage, ofBytes?, if_neg hlong, hchip, decode_layout hmin hbody hdeclared, hpart]

/-- A plan that fits a header is read back from the header and from every image with it; one
that does not is refused with the length that its header would have. -/
theorem buildHeader_readBack (chip : Chip) {info : Info} (hinfo : info.Proper) {plan : Plan}
    (hplan : plan.Encodable) {body : Bytes} (hbody : body.length < 2 ^ 32) :
    (0 < plan.writes.length ∧ 65535 < 48 + 8 * plan.writes.length →
      buildHeader chip info plan =
        .error (.headerTooLarge (48 + 8 * plan.writes.length))) ∧
    (¬(0 < plan.writes.length ∧ 65535 < 48 + 8 * plan.writes.length) →
      ∃ header, buildHeader chip info plan = .ok header ∧
        RecordTable.ofBytes? header =
          .ok (some ⟨chip, header.length - 5, true, true, plan.writes⟩) ∧
        RecordTable.ofBytes? (buildImage chip header body) =
          .ok (some ⟨chip, header.length - 5, true, true, plan.writes⟩) ∧
        ∃ image, SpiImage.ofBytes? (buildImage chip header body) = .ok (some image) ∧
          image.isIntact = true ∧ image.chip = chip ∧
          image.header = header.take (header.length - 5) ∧ image.body = body) := by
  have hwidth : ∀ w ∈ plan.writes, IsWidth w.size := fun w hw => (hplan.writes w hw).isWidth
  constructor
  · rintro ⟨hpos, hlong⟩
    have hlength := length_headerBody hinfo hwidth hpos
    rw [← hlength]
    exact buildHeader_of_not_fits (by omega)
  · intro hshort
    have hfits : leadLength + (headerBody info plan).length < 0x10000 := by
      have hle := length_headerBody_le hinfo hwidth
      omega
    obtain ⟨header, hheader⟩ := buildHeader_of_fits chip hfits
    have htable := RecordTable.ofBytes?_of_buildHeader hinfo hplan hheader
    obtain ⟨rest, hrest⟩ := prefix_buildImage chip header body
    refine ⟨header, hheader, ?_, ?_, _, SpiImage.ofBytes?_buildImage hheader hbody,
      SpiImage.isIntact_built .., rfl, rfl, rfl⟩
    · simpa using htable []
    · rw [← hrest]
      exact htable rest

theorem buildHeader_readBack_of_sequence :
    let info := Info.ofText (some "board 7 – rev. C")
    let plan : Plan := ⟨[⟨"PHY_MODE", ⟨3, 0x0010, 0x0102, 2⟩, [1, 0xFFFF]⟩,
      ⟨"PHY_LANE", ⟨15, 0xFFFF, 0xFFFFFFFF, 4⟩, []⟩], some ⟨1, 0xF000, 1, 1⟩, none⟩
    info.Proper ∧ plan.Encodable ∧
    ∃ header, buildHeader .prom21 info plan = .ok header ∧
      RecordTable.ofBytes? header = .ok (some ⟨.prom21, header.length - 5, true, true,
        [⟨1, 0xF000, 1, 1⟩, ⟨3, 0x0010, 1, 2⟩, ⟨3, 0x0010, 0xFFFF, 2⟩, ⟨3, 0x0010, 0x0102, 2⟩,
          ⟨15, 0xFFFF, 0xFFFFFFFF, 4⟩]⟩) := by
  intro info plan
  have hinfo : info.Proper := .inr ⟨_, rfl⟩
  have hplan : plan.Encodable := by decide
  have hbody : ([0xCC, 0] : Bytes).length < 2 ^ 32 := by decide
  obtain ⟨header, hheader, htable, -⟩ :=
    (buildHeader_readBack .prom21 hinfo hplan hbody).2 (by decide)
  exact ⟨hinfo, hplan, header, hheader, htable⟩

end RegisterImage
