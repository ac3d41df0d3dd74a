import RegisterImage.Json.Basic

/-!
# Records in documents

A record with named fields is written as an object, or as an array of its fields in declared
order in which fields at the end may be left out. Unknown entries of an object do not matter.

## Main definitions

* `Json.record?` — the fields of a record by name.
* `Json.required?`, `Json.optional?`, `Json.withDefault?` — the value of a field that has to be
  there, may be null or absent, or stands for a default when absent.
* `Json.listOf?` — an array whose elements are all read.
-/

namespace RegisterImage.Json

/-- The fields of a record by name. An array has no more elements than there are fields. -/
def record? (fields : List String) : Json → Option (String → Option Json)
  | obj es => some fun field => es.lookup field
  | arr xs =>
    if xs.length ≤ fields.length then some fun field => (fields.zip xs).lookup field else none
  | _ => none

variable {α : Type}

def required? (read : Json → Option α) (field : Option Json) : Option α :=
  field.bind read

def optional? (read : Json → Option α) : Option Json → Option (Option α)
  | none | some null => some none
  | some j => (read j).map some

def withDefault? (absent : α) (read : Json → Option α) : Option Json → Option α
  | none => some absent
  | some j => read j

def listOf? (read : Json → Option α) : Json → Option (List α)
  | arr xs => xs.mapM read
  | _ => none

def bool? : Json → Option Bool
  | bool b => some b
  | _ => none

/-- A value that may be absent, null when it is. -/
def ofOption (write : α → Json) : Option α → Json
  | none => null
  | some x => write x

end RegisterImage.Json
