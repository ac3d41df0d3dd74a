import RegisterImage.Scalar

/-!
# Device writes

One write of a value of one, two or four bytes to a device register. A device address has
20 bits: a segment of four bits and an offset of sixteen.

## Main definitions

* `DeviceWrite` — a write.
* `DeviceWrite.ofAddress?` — the write of a value to a full address, if the value fits.
* `DeviceWrite.address` — the full address.
* `DeviceWrite.ofJson?` — a write given in a document.
-/

namespace RegisterImage

structure DeviceWrite where
  segment : UInt8
  offset : UInt16
  value : UInt32
  size : UInt8
  deriving DecidableEq, Repr

/-- The widths of a device register in bytes. -/
def IsWidth (size : UInt8) : Prop :=
  size = 1 ∨ size = 2 ∨ size = 4

instance (size : UInt8) : Decidable (IsWidth size) :=
  inferInstanceAs (Decidable (_ ∨ _))

/-- A size that is a width. -/
def width? (size : UInt64) : Option UInt8 :=
  if size = 1 ∨ size = 2 ∨ size = 4 then some size.toUInt8 else none

theorem isWidth_of_width? {n : UInt64} {size : UInt8} (h : width? n = some size) :
    IsWidth size := by
  unfold width? at h
  split at h
  · rename_i hn
    obtain rfl := Option.some.inj h
    rcases hn with rfl | rfl | rfl <;> decide
  · cases h

namespace DeviceWrite

/-- Bits of the address beyond the segment are dropped. -/
def ofAddress? (address value : UInt64) (size : UInt8) : Option DeviceWrite :=
  if IsWidth size ∧ value ≤ sizeLimit size then
    some {
      segment := ((address >>> 16) &&& 0xF).toUInt8
      offset := (address &&& 0xFFFF).toUInt16
      value := value.toUInt32
      size }
  else none

def address (w : DeviceWrite) : UInt32 :=
  ((w.segment &&& 0xF).toUInt32 <<< 16) ||| w.offset.toUInt32

def withValue (w : DeviceWrite) (value : UInt32) : DeviceWrite :=
  { w with value }

/-! ## Writes in documents -/

/-- The size under the first of the keys for it that is present. -/
def sizeOf? (es : Entries) : Option UInt8 := do
  let size ← match ← es.first? ["size_bytes", "size", "bytes"] with
    | .str s => unsigned64? (trim s.toList)
    | j => j.unsigned?
  width? size

/-- A full address, or a segment and an offset. -/
def addressOf? (es : Entries) : Option UInt64 :=
  match es.find? "address" with
  | some full => full.hex?.map (· &&& 0xFFFFF)
  | none => do
    let offset ← (← es.find? "addr").hex?
    let segment ← (← es.find? "seg").hex?
    some (((segment &&& 0xF) <<< 16) ||| (offset &&& 0xFFFF))

/-- A write given in a document; none when anything in it is malformed. -/
def ofJson? (j : Json) : Option DeviceWrite := do
  let es ← j.entries?
  let size ← sizeOf? es
  let address ← addressOf? es
  let value ← (← es.first? ["value", "data"]).hex?
  ofAddress? address value size

end DeviceWrite

end RegisterImage
