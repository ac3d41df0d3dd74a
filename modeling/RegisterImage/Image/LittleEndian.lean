import RegisterImage.Checksum

/-!
# Words in byte strings

Words of an image are stored with the lowest byte first.

## Main definitions

* `le16`, `le32` — the bytes of a word.
* `readLe16?`, `readLe32?`, `readSized?` — the word at the front of a byte string.
* `padTo` — a byte string filled up to a multiple of a length.
* `occurs` — whether a byte string lies within another.
-/

namespace RegisterImage

def le16 (w : UInt16) : Bytes :=
  [w.toUInt8, (w >>> 8).toUInt8]

def le32 (w : UInt32) : Bytes :=
  [w.toUInt8, (w >>> 8).toUInt8, (w >>> 16).toUInt8, (w >>> 24).toUInt8]

/-- The word of some bytes, the lowest first. -/
def wordOf (bs : Bytes) : UInt32 :=
  bs.foldr (fun b w => (w <<< 8) ||| b.toUInt32) 0

/-- The word in the first `size` bytes. -/
def readSized? (size : Nat) (bs : Bytes) : Option UInt32 :=
  if size ≤ bs.length then some (wordOf (bs.take size)) else none

def readLe16? (bs : Bytes) : Option UInt16 :=
  match bs with
  | a :: b :: _ => some (wordOf [a, b]).toUInt16
  | _ => none

def readLe32? (bs : Bytes) : Option UInt32 :=
  match bs with
  | a :: b :: c :: d :: _ => some (wordOf [a, b, c, d])
  | _ => none

def padTo (align : Nat) (fill : UInt8) (bs : Bytes) : Bytes :=
  bs ++ List.replicate ((align - bs.length % align) % align) fill

/-- Whether `needle` lies somewhere in a byte string. -/
def occurs (needle : Bytes) : Bytes → Bool
  | [] => needle.isEmpty
  | b :: bs => needle.isPrefixOf (b :: bs) || occurs needle bs

/-- The checksum and the CRC that follow a part of an image. -/
def sealOf (bs : Bytes) : Bytes :=
  checksum8 bs :: le32 (crc32 bs)

theorem length_le16 (w : UInt16) : (le16 w).length = 2 := rfl

theorem length_le32 (w : UInt32) : (le32 w).length = 4 := rfl

theorem length_sealOf (bs : Bytes) : (sealOf bs).length = 5 := rfl

end RegisterImage
