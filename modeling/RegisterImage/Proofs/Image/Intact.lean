import RegisterImage.Proofs.Checksum.Crc
import RegisterImage.Proofs.Image.Parts
import RegisterImage.Proofs.Image.RoundTrip

/-!
# Intact images

A buffer is read as an intact image only if it is laid out as that image is: every byte up to the
seal of the body is one of the header, of the body, of the mark of the chip or of a seal. So an
intact image determines all bytes of the buffer but those that follow it.

## Main definitions

* `eq_append_of_readLe32?`, `eq_sealOf_append` — bytes that are told by what is read from them.
* `SpiImage.eq_layout_of_isIntact` — the buffer of an intact image.
* `SpiImage.take_eq_of_isIntact` — its front is that of the image built again from the parts.
-/

namespace RegisterImage

/-! ## Bytes told by what is read from them -/

theorem eq_append_of_readLe32? {bs : Bytes} {w : UInt32} (h : readLe32? bs = some w) :
    bs = le32 w ++ bs.drop 4 := by
  rcases bs with - | ⟨a, - | ⟨b, - | ⟨c, - | ⟨d, bs⟩⟩⟩⟩
  iterate 4 cases h
  have hword : wordOf [a, b, c, d] = wordOf (le32 w) := by
    have hread := readLe32?_append w []
    rw [List.append_nil] at hread
    exact (Option.some.inj h).trans (Option.some.inj hread).symm
  have hbytes : [a, b, c, d] = le32 w := wordOf_inj rfl (by simp) hword
  simp [← hbytes]

/-- Bytes that begin with the checksum and the CRC of a part begin with its seal. -/
theorem eq_sealOf_append {bs part : Bytes} (hsum : bs.head? = some (checksum8 part))
    (hcrc : readLe32? (bs.drop 1) = some (crc32 part)) : bs = sealOf part ++ bs.drop 5 := by
  obtain ⟨rest, rfl⟩ := List.head?_eq_some_iff.1 hsum
  exact congrArg (checksum8 part :: ·) (eq_append_of_readLe32? hcrc)

/-- What follows a body is a footer and the seal of the body. -/
theorem eq_footer_append {tail body : Bytes} (hlong : 13 ≤ tail.length)
    (hsum : (tail.drop 8).headD 0 = checksum8 body)
    (hcrc : (readLe32? (tail.drop 9)).getD 0 = crc32 body) :
    tail = tail.take 8 ++ (sealOf body ++ tail.drop 13) := by
  have hlast : (tail.drop 8).head? = some (checksum8 body) := by
    rw [← hsum, List.headD_eq_head?_getD, List.head?_drop, List.getElem?_eq_getElem (by omega),
      Option.getD_some]
  have hword : readLe32? ((tail.drop 8).drop 1) = some (crc32 body) := by
    rw [List.drop_drop, readLe32?_of_le (by rw [List.length_drop]; omega), hcrc]
  have hseal := eq_sealOf_append hlast hword
  rw [List.drop_drop] at hseal
  rw [← hseal, List.take_append_drop]

namespace SpiImage

variable {data : Bytes} {image : SpiImage}

/-! ## Layouts -/

/-- The length of an image around a sealed header, without what fills it up. -/
def sealedLength (header body : Bytes) : Nat :=
  header.length + 4 + body.length + 8 + 5

theorem length_layout (chip : Chip) (header body rest : Bytes) :
    (layout chip header body rest).length =
      sealedLength (header ++ sealOf header) body + rest.length := by
  simp only [layout, sealedLength, List.length_append, length_sealOf, length_le32,
    chip.length_firmwareSignature]
  omega

theorem take_layout (chip : Chip) (header body rest : Bytes) :
    (layout chip header body rest).take (sealedLength (header ++ sealOf header) body) =
      layout chip header body [] := by
  have hsplit : layout chip header body rest = layout chip header body [] ++ rest := by
    simp [layout]
  exact hsplit ▸ List.take_left' (length_layout chip header body [])

/-- Each part of the buffer of an intact image is what the reader compared it with. -/
theorem eq_layout_of_isIntact (h : ofBytes? data = .ok (some image))
    (hintact : image.isIntact = true) :
    ∃ rest, data = layout image.chip image.header image.body rest := by
  obtain ⟨chip, size, hholds, rfl⟩ := ofBytes?_eq_ok_some_iff.1 h
  obtain ⟨hheaderSum, hheaderCrc, hfooter, hsum, hcrc⟩ := isIntact_iff.1 hintact
  have hroom := hholds.room
  have hsize := eq_append_of_readLe32? hholds.size_eq
  simp only [footerOk, checksumOk, crcOk, decide_eq_true_eq] at hfooter hsum hcrc
  simp only [parts, checksumHolds, crcHolds, decide_eq_true_eq] at hheaderSum hheaderCrc
  simp only [parts] at hfooter hsum hcrc ⊢
  generalize declaredLength data = length at *
  generalize hbody : (data.drop (length + 9)).take size.toNat = body at *
  generalize hbodyEnd : length + 9 + size.toNat = bodyEnd at *
  have hheaderSeal := eq_sealOf_append hheaderSum (by rwa [List.drop_drop])
  rw [List.drop_drop] at hsize hheaderSeal
  have htail : data.drop bodyEnd =
      chip.firmwareSignature ++ (sealOf body ++ data.drop (bodyEnd + 13)) := by
    have hlong : 13 ≤ (data.drop bodyEnd).length := by
      rw [List.length_drop]
      omega
    have hsplit := eq_footer_append hlong (by rwa [List.drop_drop]) (by rwa [List.drop_drop])
    rwa [List.drop_drop, hfooter] at hsplit
  have hlength : UInt32.ofNat body.length = size := by
    have hcount : body.length = size.toNat := by
      rw [← hbody, List.length_take, List.length_drop]
      omega
    rw [hcount, UInt32.ofNat_toNat]
  have hrest : data.drop (length + 9) =
      body ++ (chip.firmwareSignature ++ (sealOf body ++ data.drop (bodyEnd + 13))) := by
    rw [← htail, ← hbody, ← hbodyEnd, ← List.drop_drop (j := length + 9), List.take_append_drop]
  refine ⟨data.drop (bodyEnd + 13), ?_⟩
  calc data
      = data.take length ++ data.drop length := (List.take_append_drop ..).symm
    _ = data.take length ++ (sealOf (data.take length) ++ data.drop (length + 5)) := by
        rw [← hheaderSeal]
    _ = data.take length ++ (sealOf (data.take length) ++
          (le32 size ++ data.drop (length + 9))) := by
        rw [← hsize]
    _ = layout chip (data.take length) body (data.drop (bodyEnd + 13)) := by
        rw [layout, hlength, hrest]

/-- The front of the buffer of an intact image is that of the image built from the same chip, header
and body. So the buffers of one intact image are the same up to the seal of the body. -/
theorem take_eq_of_isIntact (h : ofBytes? data = .ok (some image))
    (hintact : image.isIntact = true) :
    let header := image.header ++ sealOf image.header
    let length := sealedLength header image.body
    length ≤ data.length ∧
      data.take length = (buildImage image.chip header image.body).take length ∧
      ∀ data', ofBytes? data' = .ok (some image) → data'.take length = data.take length := by
  intro header length
  have htake {data' : Bytes} (h' : ofBytes? data' = .ok (some image)) :
      data'.take length = layout image.chip image.header image.body [] := by
    obtain ⟨rest, hrest⟩ := eq_layout_of_isIntact h' hintact
    rw [hrest, take_layout]
  refine ⟨?_, ?_, ?_⟩
  · obtain ⟨rest, hrest⟩ := eq_layout_of_isIntact h hintact
    rw [hrest, length_layout]
    exact Nat.le_add_right ..
  · obtain ⟨k, hbuilt⟩ := buildImage_eq_layout image.chip image.header image.body
    rw [htake h, hbuilt, take_layout]
  · intro data' h'
    rw [htake h', htake h]

/-- Two buffers with one image in them, the second with other bytes after it. -/
theorem take_eq_of_isIntact_with_rest :
    let lead := headerLead .promLP 20 ++ [0x52, 0x65, 0x76, 0x43]
    let data := layout .promLP lead [0xCC, 0xFF, 7] []
    let data' := layout .promLP lead [0xCC, 0xFF, 7] [1, 2, 3]
    let image := built .promLP lead [0xCC, 0xFF, 7]
    ofBytes? data = .ok (some image) ∧ image.isIntact = true ∧
      ofBytes? data' = .ok (some image) ∧
      data.take 45 = (buildImage .promLP (lead ++ sealOf lead) [0xCC, 0xFF, 7]).take 45 ∧
      data'.take 45 = data.take 45 := by
  intro lead data data' image
  have himage : ofBytes? data = .ok (some image) := by
    decide +kernel
  have himage' : ofBytes? data' = .ok (some image) := by
    decide +kernel
  have hintact : image.isIntact = true := isIntact_built ..
  obtain ⟨-, hbuilt, hsame⟩ := take_eq_of_isIntact himage hintact
  exact ⟨himage, hintact, himage', hbuilt, hsame data' himage'⟩

end SpiImage

end RegisterImage
