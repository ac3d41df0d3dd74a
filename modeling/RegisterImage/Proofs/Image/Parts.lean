import RegisterImage.Image.Container
import RegisterImage.Proofs.Image.Strides

/-!
# The parts of an image

What makes a buffer an image: the mark of a chip, a length for the header and one for the body,
and room for both and for what seals them. Whether the seals are right does not matter.

## Main definitions

* `SpiImage.Holds` — a buffer that holds an image with a body of some size.
* `SpiImage.parts` — the image that is cut out of a buffer at two lengths.
* `SpiImage.ofBytes?_eq_ok_some_iff` — a buffer is decoded exactly when it holds an image, and to
  the parts of it.
-/

namespace RegisterImage

namespace SpiImage

structure Holds (data : Bytes) (chip : Chip) (size : UInt32) : Prop where
  minLength_le : minLength ≤ data.length
  chip_eq : headerChip? data = some chip
  lead_le : 16 ≤ declaredLength data
  size_eq : readLe32? (data.drop (declaredLength data + 5)) = some size
  room : declaredLength data + 9 + size.toNat + 13 ≤ data.length

/-- The image with a header of some length and a body of some size. -/
def parts (chip : Chip) (data : Bytes) (length size : Nat) : SpiImage where
  chip
  header := data.take length
  headerChecksumOk := checksumHolds data length
  headerCrcOk := crcHolds data length
  body := (data.drop (length + 9)).take size
  footer := (data.drop (length + 9 + size)).take 8
  storedChecksum := (data.drop (length + 9 + size + 8)).headD 0
  storedCrc := (readLe32? (data.drop (length + 9 + size + 9))).getD 0
  firmware := FirmwareInfo.ofBytes? ((data.drop (length + 9)).take size) dateOffset

variable {data : Bytes} {chip : Chip} {size : UInt32} {image : SpiImage}

section Lengths

variable (h : Holds data chip size)
include h

theorem Holds.length_header :
    (parts chip data (declaredLength data) size.toNat).header.length = declaredLength data := by
  have hroom := h.room
  exact List.length_take_of_le (by omega)

theorem Holds.length_body :
    (parts chip data (declaredLength data) size.toNat).body.length = size.toNat := by
  have hroom := h.room
  exact List.length_take_of_le (by rw [List.length_drop]; omega)

end Lengths

theorem isIntact_iff : image.isIntact = true ↔
    image.headerChecksumOk = true ∧ image.headerCrcOk = true ∧ image.footerOk = true ∧
      image.checksumOk = true ∧ image.crcOk = true := by
  simp [isIntact, and_assoc]

theorem decode_eq_ok_iff : decode chip data = .ok image ↔
    16 ≤ declaredLength data ∧ ∃ size, readLe32? (data.drop (declaredLength data + 5)) = some size ∧
      declaredLength data + 9 + size.toNat + 13 ≤ data.length ∧
      parts chip data (declaredLength data) size.toNat = image := by
  unfold decode
  simp only
  split
  · simp
    omega
  · split
    · simp [*]
    · rename_i size hsize
      simp only [hsize, List.length_drop, List.drop_drop]
      split
      · simp
        omega
      · split
        · simp
          omega
        · simp only [Except.ok.injEq, parts, Option.some.injEq]
          constructor
          · intro h
            exact ⟨by omega, size, rfl, by omega, h⟩
          · rintro ⟨-, size', rfl, -, h⟩
            exact h

theorem ofBytes?_eq_ok_some_iff : ofBytes? data = .ok (some image) ↔
    ∃ chip size, Holds data chip size ∧
      parts chip data (declaredLength data) size.toNat = image := by
  unfold ofBytes?
  constructor
  · intro h
    split at h
    · cases h
    · rename_i hlong
      split at h
      · cases h
      · rename_i chip hchip
        split at h
        · rename_i image' hdecode
          cases h
          obtain ⟨hlead, size, hsize, hroom, rfl⟩ := decode_eq_ok_iff.1 hdecode
          exact ⟨chip, size, ⟨by omega, hchip, hlead, hsize, hroom⟩, rfl⟩
        · cases h
  · rintro ⟨chip, size, h, rfl⟩
    have hdecode : decode chip data = .ok (parts chip data (declaredLength data) size.toNat) :=
      decode_eq_ok_iff.2 ⟨h.lead_le, size, h.size_eq, h.room, rfl⟩
    simp [h.chip_eq, hdecode, Nat.not_lt.2 h.minLength_le]

end SpiImage

end RegisterImage
