import RegisterImage.Proofs.Image.Parts
import RegisterImage.Proofs.Image.RoundTrip

/-!
# Images are built again

An image that was built, from an image or from a capsule, is an intact image. When it is built
again it keeps its chip and its body, so that only the last plan counts and building twice for one
plan changes nothing.

## Main definitions

* `BuiltImage.MadeOf` — an image put together from a header for a plan and from a body.
* `exists_madeOf_of_buildOutput` — every image that is built is put together in this way.
* `buildOutput_closed` — what is built is decoded, and is built again to the same image.
-/

namespace RegisterImage

/-! ## Images around a header and a body -/

structure BuiltImage.MadeOf (b : BuiltImage) (info : Info) (plan : Plan) (header body : Bytes) :
    Prop where
  header_eq : buildHeader b.chip info plan = .ok header
  data_eq : b.data = buildImage b.chip header body
  length_lt : body.length < 2 ^ 32

namespace SpiImage

variable {data : Bytes} {image : SpiImage} {plan : Plan} {request : BuildRequest} {b : BuiltImage}

/-- The size of a body is read from four bytes. -/
theorem length_body_lt (h : ofBytes? data = .ok (some image)) : image.body.length < 2 ^ 32 := by
  obtain ⟨chip, size, -, rfl⟩ := ofBytes?_eq_ok_some_iff.1 h
  have hsize := size.toNat_lt
  simp only [parts, List.length_take]
  omega

theorem rebuild_eq_ok_iff : image.rebuild plan request = .ok b ↔
    ∃ header, buildHeader image.chip request.info plan = .ok header ∧
      ⟨outputName request.profileName
        ((image.firmware.map (·.dateLabel)).getD FirmwareInfo.unknownDate), image.chip,
        buildImage image.chip header image.body⟩ = b := by
  unfold rebuild
  simp only [bind, Except.bind, pure, Except.pure]
  cases buildHeader image.chip request.info plan <;> simp

/-- Neither the header nor any seal of an image counts when it is built again. -/
theorem rebuild_congr {image' : SpiImage} (hchip : image'.chip = image.chip)
    (hbody : image'.body = image.body) (hfirmware : image'.firmware = image.firmware)
    (plan : Plan) (request : BuildRequest) :
    image'.rebuild plan request = image.rebuild plan request := by
  simp only [rebuild, hchip, hbody, hfirmware]

theorem firmware_eq (h : ofBytes? data = .ok (some image)) :
    image.firmware = FirmwareInfo.ofBytes? image.body dateOffset := by
  obtain ⟨chip, size, -, rfl⟩ := ofBytes?_eq_ok_some_iff.1 h
  rfl

theorem buildOutput_of_image (h : ofBytes? data = .ok (some image)) (plan : Plan)
    (request : BuildRequest) :
    buildOutput data plan request = (image.rebuild plan request).map some := by
  simp only [buildOutput, h]

end SpiImage

/-! ## Both ways to build -/

section Build

variable {data record : Bytes} {plan : Plan} {request : BuildRequest} {b : BuiltImage}

theorem exists_madeOf_of_attempt (h : attempt plan request record = .built b) :
    ∃ header body, b.MadeOf request.info plan header body := by
  unfold attempt at h
  split at h
  · cases h
  · rename_i info _
    split at h
    · cases h
    · split at h
      · cases h
      · rename_i header hheader
        simp only at h
        split at h
        · cases h
        · cases h
          refine ⟨header, _, hheader, rfl, ?_⟩
          have hmax : info.chip.maxFirmwareSize.toNat < 2 ^ 32 := UInt32.toNat_lt _
          simp only [List.length_take, bodyRoom]
          omega

theorem exists_madeOf_of_buildOutput (h : buildOutput data plan request = .ok (some b)) :
    ∃ header body, b.MadeOf request.info plan header body ∧
      ∀ image, SpiImage.ofBytes? data = .ok (some image) →
        image.chip = b.chip ∧ image.body = body := by
  unfold buildOutput at h
  split at h
  · rename_i image himage
    obtain ⟨b', hb, rfl⟩ : ∃ b', image.rebuild plan request = .ok b' ∧ b' = b := by
      cases hb : image.rebuild plan request <;> simp_all [Except.map]
    obtain ⟨header, hheader, rfl⟩ := SpiImage.rebuild_eq_ok_iff.1 hb
    refine ⟨header, image.body, ⟨hheader, rfl, SpiImage.length_body_lt himage⟩, ?_⟩
    intro image' himage'
    rw [himage] at himage'
    cases himage'
    exact ⟨rfl, rfl⟩
  · rename_i hnone
    simp only [Except.ok.injEq, extract?] at h
    obtain ⟨r, -, hr⟩ := List.exists_of_findSome?_eq_some h
    cases hattempt : attempt plan request r.2 with
    | built b' =>
      simp only [hattempt, Attempt.image?, Option.some.injEq] at hr
      subst hr
      obtain ⟨header, body, hmade⟩ := exists_madeOf_of_attempt hattempt
      exact ⟨header, body, hmade, fun image himage => absurd himage (hnone image)⟩
    | _ => simp [hattempt, Attempt.image?] at hr

end Build

/-! ## Building again -/

namespace BuiltImage.MadeOf

variable {b : BuiltImage} {info : Info} {plan : Plan} {header body : Bytes}

/-- The parts that a built image is decoded to. -/
theorem ofBytes?_eq (h : b.MadeOf info plan header body) : SpiImage.ofBytes? b.data =
    .ok (some (SpiImage.built b.chip (header.take (header.length - 5)) body)) := by
  rw [h.data_eq]
  exact SpiImage.ofBytes?_buildImage h.header_eq h.length_lt

theorem table_eq (h : b.MadeOf info plan header body) (hinfo : info.Proper)
    (hplan : plan.Encodable) : RecordTable.ofBytes? b.data =
      .ok (some ⟨b.chip, header.length - 5, true, true, plan.writes⟩) := by
  obtain ⟨rest, hrest⟩ := prefix_buildImage b.chip header body
  rw [h.data_eq, ← hrest]
  exact RecordTable.ofBytes?_of_buildHeader hinfo hplan h.header_eq rest

/-- It is the body that tells the name of an image that is built again. -/
theorem buildOutput_eq {request : BuildRequest} (h : b.MadeOf request.info plan header body) :
    ∃ name, buildOutput b.data plan request = .ok (some ⟨name, b.chip, b.data⟩) := by
  obtain ⟨b', hb', hchip, hdata⟩ : ∃ b', (SpiImage.built b.chip
      (header.take (header.length - 5)) body).rebuild plan request = .ok b' ∧
      b'.chip = b.chip ∧ b'.data = buildImage b.chip header body :=
    ⟨_, SpiImage.rebuild_eq_ok_iff.2 ⟨header, h.header_eq, rfl⟩, rfl, rfl⟩
  refine ⟨b'.name, ?_⟩
  rw [SpiImage.buildOutput_of_image h.ofBytes?_eq, hb', ← hchip, h.data_eq, ← hdata]
  rfl

end BuiltImage.MadeOf

/-- What is built is an intact image for the plan, and building it again for the same plan gives
the same image. When it was built from an image, whatever the seals of that, the body and the chip
are the same, and building on gives what it would have given for the first image. -/
theorem buildOutput_closed {data : Bytes} {plan : Plan} {request : BuildRequest}
    (hinfo : request.info.Proper) (hplan : plan.Encodable) {b : BuiltImage}
    (h : buildOutput data plan request = .ok (some b)) :
    ∃ image, SpiImage.ofBytes? b.data = .ok (some image) ∧ image.isIntact = true ∧
      image.chip = b.chip ∧
      RecordTable.ofBytes? b.data =
        .ok (some ⟨b.chip, image.header.length, true, true, plan.writes⟩) ∧
      (∃ name, buildOutput b.data plan request = .ok (some ⟨name, b.chip, b.data⟩)) ∧
      ∀ input, SpiImage.ofBytes? data = .ok (some input) →
        b.chip = input.chip ∧ image.body = input.body ∧
        ∀ plan' request', buildOutput b.data plan' request' = buildOutput data plan' request' := by
  obtain ⟨header, body, hmade, hsource⟩ := exists_madeOf_of_buildOutput h
  have himage := hmade.ofBytes?_eq
  refine ⟨_, himage, SpiImage.isIntact_built .., rfl, ?_, hmade.buildOutput_eq, ?_⟩
  · rw [hmade.table_eq hinfo hplan]
    simp [SpiImage.built]
  · intro input hinput
    obtain ⟨hchip, hbody⟩ := hsource input hinput
    refine ⟨hchip.symm, hbody.symm, ?_⟩
    intro plan' request'
    have hfirmware : FirmwareInfo.ofBytes? body SpiImage.dateOffset = input.firmware := by
      rw [SpiImage.firmware_eq hinput, hbody]
    rw [SpiImage.buildOutput_of_image himage, SpiImage.buildOutput_of_image hinput,
      SpiImage.rebuild_congr hchip.symm hbody.symm hfirmware]

theorem buildOutput_closed_of_damaged :
    let data : Bytes := headerLead .prom19 16 ++ [0, 0, 0, 0, 0] ++ le32 2 ++ [0xCC, 0xFF] ++
      List.replicate 13 0
    let plan : Plan := ⟨[⟨"PHY_MODE", ⟨3, 0x0010, 0x0102, 2⟩, [1, 0xFFFF]⟩], none, none⟩
    let request : BuildRequest := ⟨Info.ofText (some "board 7"), "board 7", false⟩
    request.info.Proper ∧ plan.Encodable ∧
    ∃ input b image, SpiImage.ofBytes? data = .ok (some input) ∧ input.isIntact = false ∧
      buildOutput data plan request = .ok (some b) ∧
      SpiImage.ofBytes? b.data = .ok (some image) ∧ image.isIntact = true ∧
      image.chip = .prom19 ∧ image.body = [0xCC, 0xFF] ∧
      ∀ request', buildOutput b.data .empty request' = buildOutput data .empty request' := by
  intro data plan request
  have hinfo : request.info.Proper := .inr ⟨some "board 7", rfl⟩
  have hplan : plan.Encodable := by decide
  have hholds : SpiImage.Holds data .prom19 2 :=
    ⟨by decide, by decide, by decide, by decide, by decide⟩
  have hinput := SpiImage.ofBytes?_eq_ok_some_iff.2 ⟨_, _, hholds, rfl⟩
  obtain ⟨header, hheader⟩ : ∃ header, buildHeader .prom19 request.info plan = .ok header :=
    buildHeader_of_fits .prom19 (by decide)
  have hbuilt : buildOutput data plan request = _ :=
    (SpiImage.buildOutput_of_image hinput plan request).trans
      (congrArg _ (SpiImage.rebuild_eq_ok_iff.2 ⟨header, hheader, rfl⟩))
  obtain ⟨image, himage, hintact, hchip, -, -, hsource⟩ := buildOutput_closed hinfo hplan hbuilt
  obtain ⟨-, hbody, hagain⟩ := hsource _ hinput
  exact ⟨hinfo, hplan, _, _, image, hinput, by decide +kernel, hbuilt, himage, hintact, hchip,
    hbody, fun request' => hagain .empty request'⟩

end RegisterImage
