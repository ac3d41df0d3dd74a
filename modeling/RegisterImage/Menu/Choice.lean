import RegisterImage.Json.Basic
import RegisterImage.Scalar

/-!
# Choices

A choice gives a value a label, and perhaps a sequence of values to step through on the way to
it. Documents declare choices as a list of labels, as records with a value, as named entries
without one, and as objects whose keys are the values.

## Main definitions

* `Draft` — a choice as it is declared, before its value is read.
* `drafts` — the declared alternatives of a descriptor, in order.
* `choices` — the alternatives whose value reads as a number, in ascending order.
-/

namespace RegisterImage

/-- A choice as it is declared. -/
structure Draft where
  value : Json
  label : Option String
  sequence : Option Json
  writes : Option Json
  required : Option Json
  deriving Repr

namespace Draft

def ofValue (value : Json) : Draft :=
  ⟨value, none, none, none, none⟩

/-- A label is a text, or an object that names the choice and may add to its declaration. What
the choice itself declares comes first. -/
def withLabel (d : Draft) : Option Json → Draft
  | none => d
  | some (.obj es) => {
      value := d.value
      label := (Entries.first? es ["name", "label"]).bind Json.label?
      sequence := d.sequence <|> Entries.find? es "sequence"
      writes := d.writes <|> Entries.find? es "writes"
      required := d.required <|> Entries.find? es "required" }
  | some j => { d with label := j.label? }

/-- The choice of a record with a value, a label or both. -/
def ofRecord (es : Entries) : Draft :=
  let d : Draft := {
    value := (es.find? "value").getD .null
    label := none
    sequence := es.find? "sequence"
    writes := es.find? "writes"
    required := es.find? "required" }
  d.withLabel (es.find? "label")

/-- The choices of an object whose keys are values. -/
def ofEntries (es : Entries) : List Draft :=
  es.map fun e => (ofValue (.str e.1)).withLabel (some e.2)

/-- The choice whose value is its position in a list. -/
def atPosition (index : Nat) (label : Json) : Draft :=
  (ofValue (.str (decimalText index))).withLabel (some label)

/-- The label, or the value as text when there is none. -/
def labelOrValue (d : Draft) : String :=
  (d.label <|> d.value.label?).getD ""

end Draft

/-! ## Descriptors -/

/-- Whether an object is a record rather than a set of keyed choices. -/
def isRecord (es : Entries) : Bool :=
  es.contains "value" || es.contains "label"

/-- The alternatives that one element of a list declares. -/
def draftsAt (index : Nat) : Json → List Draft
  | .obj es =>
    if isRecord es then [Draft.ofRecord es]
    else if Entries.contains es "name" || Entries.contains es "sequence" then
      [Draft.atPosition index (.obj es)]
    else Draft.ofEntries es
  | .str s => [Draft.atPosition index (.str s)]
  | .int n => [Draft.atPosition index (.int n)]
  | .float x => [Draft.atPosition index (.float x)]
  | _ => []

/-- The declared alternatives. Elements that declare nothing still count for the position of
those after them. -/
def drafts : Json → List Draft
  | .arr xs => xs.zipIdx.flatMap fun (x, index) => draftsAt index x
  | .obj es => Draft.ofEntries es
  | _ => []

/-! ## Choices -/

structure Choice where
  value : UInt64
  label : String
  sequence : Option (List UInt64)
  deriving DecidableEq, Repr

namespace Choice

/-- What selects the choice: its value in decimal. -/
def key (c : Choice) : String :=
  decimalText c.value.toNat

def ofDraft? (d : Draft) : Option Choice :=
  d.value.number?.map fun value => {
    value
    label := d.labelOrValue
    sequence := d.sequence.bind Json.sequence? }

end Choice

/-- The choices of a descriptor in ascending order; choices of the same value stay in declared
order, and alternatives whose value is no number are left out. -/
def choices (options : Json) : List Choice :=
  ((drafts options).filterMap Choice.ofDraft?).mergeSort fun a b => a.value ≤ b.value

end RegisterImage
