import RegisterImage.Json.Printer
import RegisterImage.Text.Hex

/-!
# Scalars

A register document gives a quantity as an integer or as text. As an address, a default or a
register value, text is hexadecimal; as an option value it is decimal unless it says otherwise.

## Main definitions

* `Json.unsigned?`, `Json.signed?` — the integers of a document that fit 64 bits.
* `Json.hex?`, `Json.number?` — the two readings of a document node.
* `Json.label?`, `Json.sequence?` — a node as text to show, and as a run of values.
* `Scalar` — an integer or a text.
-/

namespace RegisterImage

namespace Json

def unsigned? : Json → Option UInt64
  | int n => if 0 ≤ n then word64? n.toNat else none
  | _ => none

def signed? : Json → Option Int
  | int n => if -0x8000000000000000 ≤ n ∧ n < 0x8000000000000000 then some n else none
  | _ => none

def number? : Json → Option UInt64
  | str s => readNumber? s
  | j => j.unsigned?

def hex? : Json → Option UInt64
  | str s => readHex? s
  | j => j.unsigned?

/-- The text that names a node; nothing for an empty text and for anything but text, numbers
and truth values. -/
def label? : Json → Option String
  | str s => if s.isEmpty then none else some s
  | int n => some (int n).compact
  | float x => some (float x).compact
  | bool b => some (bool b).compact
  | _ => none

/-- A single value or a list of values; what does not read as a number is left out. -/
def sequence? (j : Json) : Option (List UInt64) :=
  let values := match j with
    | arr xs => xs.filterMap number?
    | j => j.number?.toList
  if values.isEmpty then none else some values

end Json

inductive Scalar where
  | int (n : Int)
  | text (s : String)
  deriving DecidableEq, Repr

namespace Scalar

def ofJson? : Json → Option Scalar
  | .str s => some (text s)
  | j => j.signed?.map int

def toJson : Scalar → Json
  | int n => .int n
  | text s => .str s

def ofWord (w : UInt64) : Scalar :=
  text (hexText w.toNat)

/-- Text is hexadecimal. -/
def hex? (s : Scalar) : Option UInt64 :=
  s.toJson.hex?

/-- Text is decimal unless it says otherwise. -/
def number? (s : Scalar) : Option UInt64 :=
  s.toJson.number?

/-- The canonical text; nothing for a negative integer. -/
def canonical : Scalar → String
  | int n => if 0 ≤ n then hexText n.toNat else ""
  | text s => canonicalHex s

def isBlank : Scalar → Bool
  | int _ => false
  | text s => allBlank s.toList

end Scalar

end RegisterImage
