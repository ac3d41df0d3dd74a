/-!
# Checksums

The two checksums of an image: the sum of its bytes and the CRC-32 of its bytes.

## Main definitions

* `byteSum`, `checksum8` — the sum of the bytes in 32 bits and its low 8 bits.
* `crc32` — the reflected CRC with polynomial `0x04C11DB7`, started from and finished with the
  complement.
-/

namespace RegisterImage

abbrev Bytes := List UInt8

def byteSum (bs : Bytes) : UInt32 :=
  bs.foldl (fun sum b => sum + b.toUInt32) 0

def checksum8 (bs : Bytes) : UInt8 :=
  (byteSum bs).toUInt8

/-- The polynomial with its lowest power in the highest bit. -/
def crcPolynomial : UInt32 := 0xEDB88320

/-- One bit shifted out of the register. -/
def crcShift (crc : UInt32) : UInt32 :=
  if crc &&& 1 = 1 then (crc >>> 1) ^^^ crcPolynomial else crc >>> 1

def crcByte (crc : UInt32) (b : UInt8) : UInt32 :=
  Nat.repeat crcShift 8 (crc ^^^ b.toUInt32)

def crc32 (bs : Bytes) : UInt32 :=
  ~~~(bs.foldl crcByte 0xFFFFFFFF)

example : crc32 [0x31, 0x32, 0x33, 0x34, 0x35, 0x36, 0x37, 0x38, 0x39] = 0xCBF43926 := by
  decide +kernel

end RegisterImage
