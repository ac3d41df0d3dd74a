import RegisterImage.Json.Record
import RegisterImage.Register.Basic

/-!
# Registers in documents

The record form of registers: how a register is read from a document node and written back.

## Main definitions

* `Register.ofJson?` — the register that a node describes, if every field is well formed.
* `Register.toJson` — a register with all its fields in declared order.
-/

namespace RegisterImage

namespace ValueKind

/-- An unknown kind is plain. -/
def ofName : String → ValueKind
  | "bitfield" => bitfield
  | "subfield" => subfield
  | _ => plain

def name : ValueKind → String
  | plain => "plain"
  | bitfield => "bitfield"
  | subfield => "subfield"

/-- A kind is its name, or an object whose only key is the name and whose value is null. -/
def ofJson? : Json → Option ValueKind
  | .str s => some (ofName s)
  | .obj [(s, .null)] => some (ofName s)
  | _ => none

end ValueKind

open Json in
def ValueBounds.ofJson? (j : Json) : Option ValueBounds := do
  let field ← j.record? ["minimum", "maximum"]
  let minimum ← optional? Scalar.ofJson? (field "minimum")
  let maximum ← optional? Scalar.ofJson? (field "maximum")
  some { minimum, maximum }

def ValueBounds.toJson (b : ValueBounds) : Json :=
  .obj [("minimum", .ofOption Scalar.toJson b.minimum),
    ("maximum", .ofOption Scalar.toJson b.maximum)]

namespace SubField

def fields : List String :=
  ["name", "bits", "options", "range", "minimum", "maximum", "min", "max"]

open Json in
def ofJson? (j : Json) : Option SubField := do
  let field ← j.record? fields
  let name ← optional? string? (field "name")
  let bits ← optional? Scalar.ofJson? (field "bits")
  let options ← optional? some (field "options")
  let range ← optional? ValueBounds.ofJson? (field "range")
  let minimum ← optional? Scalar.ofJson? (field "minimum")
  let maximum ← optional? Scalar.ofJson? (field "maximum")
  let min ← optional? Scalar.ofJson? (field "min")
  let max ← optional? Scalar.ofJson? (field "max")
  some { name, bits, options, range, minimum, maximum, min, max }

def toJson (f : SubField) : Json :=
  .obj [("name", .ofOption .str f.name), ("bits", .ofOption Scalar.toJson f.bits),
    ("options", f.options.getD .null), ("range", .ofOption ValueBounds.toJson f.range),
    ("minimum", .ofOption Scalar.toJson f.minimum),
    ("maximum", .ofOption Scalar.toJson f.maximum),
    ("min", .ofOption Scalar.toJson f.min), ("max", .ofOption Scalar.toJson f.max)]

end SubField

namespace Register

def fields : List String :=
  ["code", "name", "description", "address", "size_bytes", "default", "range", "required",
    "value_type", "bit_fields", "sub_fields", "byte_fields", "sequence"]

open Json in
def ofJson? (j : Json) : Option Register := do
  let field ← j.record? fields
  let code ← required? string? (field "code")
  let name ← optional? string? (field "name")
  let description ← optional? string? (field "description")
  let address ← required? Scalar.ofJson? (field "address")
  let sizeBytes ← optional? Scalar.ofJson? (field "size_bytes")
  let initial ← optional? Scalar.ofJson? (field "default")
  let range ← optional? ValueBounds.ofJson? (field "range")
  let required ← withDefault? false bool? (field "required")
  let kind ← withDefault? .plain ValueKind.ofJson? (field "value_type")
  let bitFields ← optional? elements? (field "bit_fields")
  let subFields ← optional? (listOf? SubField.ofJson?) (field "sub_fields")
  let byteFields ← optional? elements? (field "byte_fields")
  let sequence ← optional? some (field "sequence")
  some {
    code, name, description, address, sizeBytes, initial, range, required, kind, bitFields,
    subFields, byteFields, sequence }

def toJson (r : Register) : Json :=
  .obj [("code", .str r.code), ("name", .ofOption .str r.name),
    ("description", .ofOption .str r.description), ("address", r.address.toJson),
    ("size_bytes", .ofOption Scalar.toJson r.sizeBytes),
    ("default", .ofOption Scalar.toJson r.initial),
    ("range", .ofOption ValueBounds.toJson r.range), ("required", .bool r.required),
    ("value_type", .str r.kind.name), ("bit_fields", .ofOption .arr r.bitFields),
    ("sub_fields", .ofOption (fun fs => .arr (fs.map SubField.toJson)) r.subFields),
    ("byte_fields", .ofOption .arr r.byteFields), ("sequence", r.sequence.getD .null)]

end Register

end RegisterImage
