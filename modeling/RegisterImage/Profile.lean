import RegisterImage.Json.Record
import RegisterImage.Settings

/-!
# Profiles

A profile is a document with values for registers. Exported profiles hold the edits; a profile
may also be a list of records or a plain object whose keys are codes.

## Main definitions

* `Profile` — an exported profile.
* `Settings.toProfile` — the edits of settings as a profile.
* `profileValues?` — the values that a document of any of the shapes holds.
-/

namespace RegisterImage

structure Profile where
  profile : String
  chipset : String
  values : CodeMap String

namespace Profile

def ofPairs (profile chipset : String) (values : List (String × String)) : Profile :=
  ⟨profile, chipset, values.foldl (fun m e => m.insert e.1 e.2) ∅⟩

def toJson (p : Profile) : Json :=
  .obj [("profile", .str p.profile), ("chipset", .str p.chipset),
    ("values", .obj (p.values.entries.map fun e => (e.1, .str e.2)))]

/-- The entries of an object of texts. -/
def texts? : Json → Option (List (String × String))
  | .obj es => es.mapM fun e => e.2.string?.map (e.1, ·)
  | _ => none

open Json in
def ofJson? (j : Json) : Option Profile := do
  let field ← j.record? ["profile", "chipset", "values"]
  let profile ← withDefault? "" string? (field "profile")
  let chipset ← withDefault? "" string? (field "chipset")
  let values ← required? texts? (field "values")
  some (ofPairs profile chipset values)

end Profile

def Settings.toProfile (s : Settings) (profile chipset : String) : Profile :=
  Profile.ofPairs profile chipset s.editedValues

/-! ## Values in documents -/

/-- The scalars among the entries of an object. -/
def scalarEntries (es : Entries) : List (String × Scalar) :=
  es.filterMap fun e => (Scalar.ofJson? e.2).map (e.1, ·)

/-- The code and the value of a record. -/
def valueRecord? (record : Json) : Option (String × Scalar) := do
  let code ← (← record.get? "code").string?
  let value ← Scalar.ofJson? (← record.get? "value")
  some (code, value)

def someUnlessEmpty {α : Type} (xs : List α) : Option (List α) :=
  if xs.isEmpty then none else some xs

/-- The values of a profile document: an object under `values`, or records in a list under
`registers` or `items`, or else the entries whose keys are codes of the catalog. -/
def profileValues? (document : Json) (c : Catalog) : Option (List (String × Scalar)) := do
  let es ← document.entries?
  match es.find? "values", es.first? ["registers", "items"] with
  | some (.obj values), _ => some (scalarEntries values)
  | _, some (.arr records) => someUnlessEmpty (records.filterMap valueRecord?)
  | _, _ => someUnlessEmpty (scalarEntries (es.filter fun e => c.contains e.1))

end RegisterImage
