import RegisterImage.BitSpan
import RegisterImage.Menu.Choice
import RegisterImage.Register.Basic

/-!
# Fields

A field is a span of bits of a register with its legal range and its choices.

## Main definitions

* `Field` — a field.
* `Field.ofSubField?` — the field that a subfield of a register describes.
* `Field.selected?` — the choice that the bits of a value select.
-/

namespace RegisterImage

structure Field where
  name : String
  span : BitSpan
  min : UInt64
  max : UInt64
  choices : List Choice
  deriving DecidableEq, Repr

namespace Field

/-- A span is written out, or the number of a single bit. -/
def spanOf? : Scalar → Option BitSpan
  | .int n => if 0 ≤ n then BitSpan.ofBounds? n.toNat n.toNat else none
  | .text s => BitSpan.ofText? s

/-- The first bound that reads as a number. -/
def firstBound? (bounds : List (Option Scalar)) : Option UInt64 :=
  bounds.findSome? (·.bind Scalar.number?)

/-- The range of the register, which bounds its fields when it is taken apart into them. -/
def inheritedRange (r : Register) : Option ValueBounds :=
  if r.kind = .subfield then r.range else none

/-- The field of a subfield whose span can be read. -/
def ofSubField? (f : SubField) (r : Register) : Option Field := do
  let span ← spanOf? (← f.bits)
  let min? := firstBound? [f.range.bind (·.minimum), f.minimum, f.min,
    (inheritedRange r).bind (·.minimum)]
  let max? := firstBound? [f.range.bind (·.maximum), f.maximum, f.max,
    (inheritedRange r).bind (·.maximum)]
  some {
    name := f.name.getD ""
    span
    min := min?.getD 0
    max := if (max?.getD span.limit) ≤ span.limit then max?.getD span.limit else span.limit
    choices := (f.options.map RegisterImage.choices).getD [] }

def selected? (f : Field) (value : UInt64) : Option Choice :=
  f.choices.find? fun c => c.value = f.span.extract value

end Field

end RegisterImage
