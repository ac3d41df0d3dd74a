import RegisterImage.Scalar

/-!
# Bit labels

What a single bit means when it is clear and when it is set, with the steps that lead to
either state.

## Main definitions

* `BitLabels` — labels and sequences of the two states.
* `BitLabels.ofJson` — the labels that a descriptor declares.
-/

namespace RegisterImage

structure BitLabels where
  clear : String
  set : String
  clearSequence : Option (List UInt64)
  setSequence : Option (List UInt64)
  deriving DecidableEq, Repr

namespace BitLabels

/-- The label of one state: none when it is not declared. -/
def label? : Option Json → Option String
  | none => none
  | some (.obj es) => some (((Entries.first? es ["name", "label"]).bind Json.label?).getD "")
  | some j => j.label?

def sequence? : Option Json → Option (List UInt64)
  | some (.obj es) => (Entries.find? es "sequence").bind Json.sequence?
  | _ => none

/-- The labels of the two states; a set bit without a label has that of a clear one. -/
def ofStates (clear set : Option Json) : BitLabels where
  clear := (label? clear).getD ""
  set := (label? set <|> label? clear).getD ""
  clearSequence := sequence? clear
  setSequence := sequence? set

/-- A descriptor is a pair of states, an object with the keys `0` and `1`, or one label for
both. -/
def ofJson : Json → BitLabels
  | .arr xs => ofStates xs[0]? xs[1]?
  | .obj es => ofStates (Entries.find? es "0") (Entries.find? es "1")
  | .str s => ofStates (some (.str s)) none
  | .int n => ofStates (some (.int n)) none
  | .float x => ofStates (some (.float x)) none
  | _ => ofStates none none

def sequenceFor (b : BitLabels) (isSet : Bool) : Option (List UInt64) :=
  if isSet then b.setSequence else b.clearSequence

end BitLabels

end RegisterImage
