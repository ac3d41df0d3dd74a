import RegisterImage.DeviceWrite

/-!
# Registers

A register is a leaf of a register document: a configurable value of a device register, with a
default, a legal range, and descriptors of what the values mean.

## Main definitions

* `Register` — a register.
* `Register.width?` — its width in bytes.
* `Register.defaultHex`, `Register.defaultValue?` — its default as canonical text and as a
  number.
* `Register.accepts` — whether a value may be written to it.
-/

namespace RegisterImage

/-- How the value of a register is taken apart. -/
inductive ValueKind where
  | plain
  | bitfield
  | subfield
  deriving DecidableEq, Repr

structure ValueBounds where
  minimum : Option Scalar
  maximum : Option Scalar
  deriving DecidableEq, Repr

/-- Whether a number lies within the bounds. A bound that does not read as a number is none. -/
def ValueBounds.admits (b : ValueBounds) (n : UInt64) : Bool :=
  (b.minimum.bind Scalar.hex?).all (· ≤ n) && (b.maximum.bind Scalar.hex?).all (n ≤ ·)

/-- A span of bits within the value of a register, as the document describes it. -/
structure SubField where
  name : Option String
  bits : Option Scalar
  options : Option Json
  range : Option ValueBounds
  minimum : Option Scalar
  maximum : Option Scalar
  min : Option Scalar
  max : Option Scalar
  deriving Repr

structure Register where
  code : String
  name : Option String
  description : Option String
  address : Scalar
  sizeBytes : Option Scalar
  initial : Option Scalar
  range : Option ValueBounds
  required : Bool
  kind : ValueKind
  bitFields : Option (List Json)
  subFields : Option (List SubField)
  byteFields : Option (List Json)
  sequence : Option Json
  deriving Repr

namespace Register

def addressValue? (r : Register) : Option UInt64 :=
  r.address.hex?

/-- The declared width, one byte when none is declared. -/
def width? (r : Register) : Option UInt8 :=
  let size? : Option Int := match r.sizeBytes with
    | none => some 1
    | some (.int n) => some n
    | some (.text s) => if allBlank s.toList then some 1 else signed64? (trim s.toList)
  size?.bind fun n => if n = 1 ∨ n = 2 ∨ n = 4 then some (UInt8.ofNat n.toNat) else none

/-- The default as canonical text, empty when there is none. -/
def defaultHex (r : Register) : String :=
  match r.initial with
  | some s => s.canonical
  | none => ""

def defaultValue? (r : Register) : Option UInt64 :=
  readHex? r.defaultHex

/-- The default may always be written. Any other value has to be a number within the range and
the width; the range of a register with subfields bounds the subfields instead. -/
def accepts (r : Register) (value : String) : Bool :=
  hexEquals value r.defaultHex ||
    match readHex? value with
    | none => false
    | some n =>
      (r.kind == .subfield || r.range.all (·.admits n)) && r.width?.all (n ≤ sizeLimit ·)

def displayName (r : Register) : String :=
  r.name.getD r.code

end Register

end RegisterImage
