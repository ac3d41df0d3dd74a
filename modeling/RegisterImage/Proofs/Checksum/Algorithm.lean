import RegisterImage.Proofs.Checksum.Crc

/-!
# The CRC as it is described

A CRC is described by a polynomial, the register it begins with, the order in which bits enter and
leave, and a mask for the result. The register is described with the highest power first, and the
CRC of an image is computed on the reversed register.

## Main definitions

* `CrcAlgorithm` — the description of a CRC of 32 bits.
* `CrcAlgorithm.checksum` — the CRC that is described.
* `toBitVec_crc32` — the CRC of an image is the one of its description.
-/

namespace RegisterImage

/-- A polynomial without its highest power, the first register, whether bytes enter with their
lowest bit first, whether the last register is reversed, and what is added to it. -/
structure CrcAlgorithm where
  poly : BitVec 32
  init : BitVec 32
  refin : Bool
  refout : Bool
  xorout : BitVec 32

namespace CrcAlgorithm

variable (a : CrcAlgorithm)

/-- One bit shifted out of the register, the highest power first. -/
def shift (register : BitVec 32) : BitVec 32 :=
  if register.msb then (register <<< 1) ^^^ a.poly else register <<< 1

def feed (register : BitVec 32) (b : UInt8) : BitVec 32 :=
  let bits := if a.refin then b.toBitVec.reverse else b.toBitVec
  Nat.repeat a.shift 8 (register ^^^ (bits.setWidth 32 <<< 24))

def checksum (bs : Bytes) : BitVec 32 :=
  let register := bs.foldl a.feed a.init
  (if a.refout then register.reverse else register) ^^^ a.xorout

/-- The description of the CRC of an image. -/
def crc32 : CrcAlgorithm := ⟨0x04C11DB7, 0xFFFFFFFF, true, true, 0xFFFFFFFF⟩

end CrcAlgorithm

/-! ## Reversed registers -/

theorem reverse_xor (x y : BitVec 32) : (x ^^^ y).reverse = x.reverse ^^^ y.reverse := by
  apply BitVec.eq_of_getLsbD_eq
  intro i hi
  simp only [BitVec.getLsbD_xor, BitVec.getLsbD_reverse, BitVec.getMsbD_xor]

theorem reverse_shiftLeft_one (x : BitVec 32) : (x <<< 1).reverse = x.reverse >>> 1 := by
  apply BitVec.eq_of_getLsbD_eq
  intro i hi
  simp [BitVec.getLsbD_reverse, Nat.add_comm]

/-- A reversed byte at the high end of the register, reversed with it. -/
theorem reverse_setWidth_shiftLeft (b : BitVec 8) :
    (b.reverse.setWidth 32 <<< 24).reverse = b.setWidth 32 := by
  apply BitVec.eq_of_getLsbD_eq
  intro i hi
  rw [BitVec.getLsbD_reverse]
  simp [BitVec.getMsbD_reverse, hi]

theorem low_bit_iff_msb {x : UInt32} {r : BitVec 32} (h : x.toBitVec = r.reverse) :
    x &&& 1 = 1 ↔ r.msb = true := by
  have hbit : x.toBitVec.getLsbD 0 = r.msb := by
    rw [h, BitVec.getLsbD_reverse]
    rfl
  rw [← hbit, low_bit_iff]
  simp [BitVec.getLsbD]

theorem toBitVec_crcShift {x : UInt32} {r : BitVec 32} (h : x.toBitVec = r.reverse) :
    (crcShift x).toBitVec = (CrcAlgorithm.crc32.shift r).reverse := by
  have hpoly : CrcAlgorithm.crc32.poly.reverse = crcPolynomial.toBitVec := by decide +kernel
  simp only [crcShift, CrcAlgorithm.shift, low_bit_iff_msb h]
  split
  · rw [reverse_xor, reverse_shiftLeft_one, hpoly, ← h]
    rfl
  · rw [reverse_shiftLeft_one, ← h]
    rfl

theorem toBitVec_repeat_crcShift (n : Nat) {x : UInt32} {r : BitVec 32}
    (h : x.toBitVec = r.reverse) :
    (Nat.repeat crcShift n x).toBitVec =
      (Nat.repeat CrcAlgorithm.crc32.shift n r).reverse := by
  induction n with
  | zero => exact h
  | succ n ih => exact toBitVec_crcShift ih

theorem toBitVec_crcByte {x : UInt32} {r : BitVec 32} (h : x.toBitVec = r.reverse) (b : UInt8) :
    (crcByte x b).toBitVec = (CrcAlgorithm.crc32.feed r b).reverse := by
  apply toBitVec_repeat_crcShift
  rw [reverse_xor, ← h]
  simp only [CrcAlgorithm.crc32, if_pos, reverse_setWidth_shiftLeft]
  rfl

theorem toBitVec_foldl_crcByte {x : UInt32} {r : BitVec 32} (h : x.toBitVec = r.reverse)
    (bs : Bytes) :
    (bs.foldl crcByte x).toBitVec = (bs.foldl CrcAlgorithm.crc32.feed r).reverse := by
  induction bs generalizing x r with
  | nil => exact h
  | cons b bs ih => exact ih (toBitVec_crcByte h b)

theorem toBitVec_crc32 (bs : Bytes) : (crc32 bs).toBitVec = CrcAlgorithm.crc32.checksum bs := by
  have hinit : (0xFFFFFFFF : UInt32).toBitVec = CrcAlgorithm.crc32.init.reverse := by
    decide +kernel
  have hfold := toBitVec_foldl_crcByte hinit bs
  have hnot : ∀ v : BitVec 32, ~~~v = v ^^^ CrcAlgorithm.crc32.xorout := by
    intro v
    rw [← BitVec.xor_allOnes]
    rfl
  simp only [crc32, UInt32.toBitVec_not, hfold, hnot]
  rfl

end RegisterImage
