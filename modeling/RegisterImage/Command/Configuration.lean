import RegisterImage.Json.Reader
import RegisterImage.Json.Record

/-!
# Configuration files

A configuration file is a record of what else would be given on the command line, and of values
for registers. A repeated field is refused; unknown fields do not matter.

## Main definitions

* `Configuration` — a configuration.
* `Configuration.ofText?` — the configuration in a text.
-/

namespace RegisterImage

structure Configuration where
  registers : Option String
  variant : Option String
  hideGroups : List String
  hideItems : List String
  profile : Option String
  values : Entries
  profileName : String
  customInfo : Option String
  omitInfo : Bool
  output : Option String
  ignoreChecksum : Bool
  chip : Option String
  quiet : Bool

namespace Configuration

/-- The configuration without any file. -/
def empty : Configuration where
  registers := none
  variant := none
  hideGroups := []
  hideItems := []
  profile := none
  values := []
  profileName := ""
  customInfo := none
  omitInfo := false
  output := none
  ignoreChecksum := false
  chip := none
  quiet := false

/-- The names of the fields in declared order. -/
def fields : List String :=
  ["registers", "variant", "hide_groups", "hide_items", "profile", "values", "profile_name",
    "custom_info", "omit_info", "output", "ignore_checksum", "chip", "quiet"]

/-- The fields that an array has to have. -/
def minElements : Nat := 12

open Json in
def ofFields? (field : String → Option Json) : Option Configuration := do
  let registers ← optional? string? (field "registers")
  let variant ← optional? string? (field "variant")
  let hideGroups ← withDefault? [] (listOf? string?) (field "hide_groups")
  let hideItems ← withDefault? [] (listOf? string?) (field "hide_items")
  let profile ← optional? string? (field "profile")
  let values ← withDefault? [] entries? (field "values")
  let profileName ← withDefault? "" string? (field "profile_name")
  let customInfo ← optional? string? (field "custom_info")
  let omitInfo ← withDefault? false bool? (field "omit_info")
  let output ← optional? string? (field "output")
  let ignoreChecksum ← withDefault? false bool? (field "ignore_checksum")
  let chip ← optional? string? (field "chip")
  let quiet ← withDefault? false bool? (field "quiet")
  some { registers, variant, hideGroups, hideItems, profile, values, profileName, customInfo,
         omitInfo, output, ignoreChecksum, chip, quiet }

/-- The configuration of the entries of an object as they are written. -/
def ofWritten? (es : Entries) : Option Configuration :=
  if ((es.map (·.1)).filter (· ∈ fields)).Nodup then ofFields? es.find? else none

/-- An array holds the fields in declared order and may leave out the last. -/
def ofArray? (j : Json) : Option Configuration :=
  if (j.elements?.getD []).length < minElements then none
  else j.record? fields >>= ofFields?

def ofText? (text : String) : Option Configuration :=
  match Json.parseEntries? fields text with
  | some es => ofWritten? es
  | none => Json.parse? text >>= ofArray?

end Configuration

end RegisterImage
