import RegisterImage.Catalog
import RegisterImage.CodeMap

/-!
# Settings

The settings of a catalog: the value of each register, whether it is an edit, and the preset
that is chosen for it. A register without a value has its default.

Choosing looks at menus, so every operation that may choose a preset returns the catalog
beside its result.

## Main definitions

* `Settings` — values, edit marks and chosen presets.
* `Settings.current` — the value of a register, or its default.
* `Settings.setValue`, `Settings.selectPreset`, `Settings.clearPreset` — changes by hand.
* `Settings.applyValues` — the settings of a list of values.
* `Settings.applyWrites` — the settings of a list of writes read back from an image.
* `Settings.editedValues` — what is exported.
-/

namespace RegisterImage

structure Settings where
  values : CodeMap String
  edited : CodeMap Unit
  presets : CodeMap String

namespace Settings

def empty : Settings :=
  ⟨∅, ∅, ∅⟩

instance : Inhabited Settings := ⟨empty⟩

def value? (s : Settings) (code : String) : Option String :=
  s.values.get? code

/-- The value of a register, or its default; empty when it has neither. -/
def current (s : Settings) (r : Register) : String :=
  (s.value? r.code).getD r.defaultHex

def isEdited (s : Settings) (code : String) : Bool :=
  s.edited.contains code

def preset? (s : Settings) (code : String) : Option String :=
  s.presets.get? code

/-! ## Changes by hand -/

/-- The settings with a canonical value for a register. A value that equals the default is no
edit; an empty one stands for no value. No preset is chosen. -/
def record (s : Settings) (r : Register) (canonical : String) : Settings where
  values := if canonical = "" then s.values.erase r.code else s.values.insert r.code canonical
  edited :=
    if hexEquals canonical r.defaultHex then s.edited.erase r.code
    else if canonical = "" then s.edited
    else s.edited.insert r.code ()
  presets := s.presets.erase r.code

/-- The number that a canonical value stands for, when it is an edit. -/
def editedNumber? (r : Register) (canonical : String) : Option UInt64 :=
  if hexEquals canonical r.defaultHex || canonical = "" then none else readHex? canonical

def withPreset (s : Settings) (r : Register) : Option Preset → Settings
  | some p => { s with presets := s.presets.insert r.code p.label }
  | none => s

/-- The settings with a canonical value for a register. An edit chooses the first preset with
its value. -/
def store (s : Settings) (c : Catalog) (r : Register) (canonical : String) :
    Settings × Catalog :=
  match editedNumber? r canonical with
  | none => (s.record r canonical, c)
  | some n =>
    let (menu, c) := c.menu r
    ((s.record r canonical).withPreset r (menu.presetFor? n), c)

/-- A typed value for a register, and whether it may be written. A value that may not is kept
all the same. -/
def setValue (s : Settings) (c : Catalog) (code text : String) :
    Except Error (Bool × Settings × Catalog) := do
  let r ← c.find code
  let (s, c) := s.store c r (canonicalHex text)
  return (r.accepts (s.current r), s, c)

/-- Whether a preset leaves a register at its default: one with writes does when they write the
default, any other when its value is the default. -/
def isDefaultPreset (r : Register) (p : Preset) : Bool :=
  match p.writes with
  | some writes =>
    match r.addressValue?, r.defaultValue?, r.width? with
    | some address, some default, some width => Preset.putsAmong writes address default width
    | _, _, _ => false
  | none => hexEquals p.valueHex r.defaultHex

/-- A preset chosen for a register by its label; the value follows it. -/
def choose (s : Settings) (r : Register) (p : Preset) : Settings where
  values := s.values.insert r.code p.valueHex
  edited := if isDefaultPreset r p then s.edited.erase r.code else s.edited.insert r.code ()
  presets := s.presets.insert r.code p.label

/-- The outcome of choosing a preset, and the catalog, which has looked at the menu even when
there is no such preset. -/
def selectPreset (s : Settings) (c : Catalog) (code label : String) :
    Except Error Settings × Catalog :=
  match c.find code with
  | .error e => (.error e, c)
  | .ok r =>
    let (menu, c) := c.menu r
    match menu.preset? label with
    | some p => (.ok (s.choose r p), c)
    | none => (.error (.unknownPreset label code), c)

def clearPreset (s : Settings) (code : String) : Settings :=
  { s with presets := s.presets.erase code }

/-! ## Lists of values -/

structure ApplySummary where
  applied : Nat
  skipped : Nat
  deriving DecidableEq, Repr

/-- One value of a list. Unknown codes and values without a hexadecimal digit are skipped. -/
def applyValue (state : Settings × Catalog × ApplySummary) (entry : String × Scalar) :
    Settings × Catalog × ApplySummary :=
  let (s, c, summary) := state
  let skipped := (s, c, { summary with skipped := summary.skipped + 1 })
  match c.register? entry.1 with
  | none => skipped
  | some r =>
    if entry.2.canonical = "" then skipped
    else
      let (s, c) := s.store c r entry.2.canonical
      (s, c, { summary with applied := summary.applied + 1 })

/-- The settings of a list of values, whatever was set before. -/
def applyValues (c : Catalog) (values : List (String × Scalar)) :
    Settings × Catalog × ApplySummary :=
  values.foldl applyValue (empty, c, ⟨0, 0⟩)

/-! ## Writes read back -/

structure WriteSummary where
  matched : Nat
  unmatched : Nat
  applied : ApplySummary
  deriving DecidableEq, Repr

/-- The value of a write for every register it reaches. -/
def collect (c : Catalog) (found : CodeMap Scalar) (w : DeviceWrite) : CodeMap Scalar :=
  (c.matching w.slot).foldl
    (fun found r => found.insert r.code (Scalar.ofWord w.value.toUInt64)) found

/-- The values that writes leave behind, by code. -/
def writtenValues (c : Catalog) (writes : List DeviceWrite) : CodeMap Scalar :=
  writes.foldl (collect c) ∅

/-- The settings of a list of writes. When no write reaches a register, the settings stay as
they are. -/
def applyWrites (s : Settings) (c : Catalog) (writes : List DeviceWrite) :
    Settings × Catalog × WriteSummary :=
  let values := writtenValues c writes
  let matched := (writes.flatMap fun w => c.matching w.slot).length
  let unmatched := (writes.filter fun w => (c.matching w.slot).isEmpty).length
  if values.entries.isEmpty then (s, c, ⟨matched, unmatched, ⟨0, 0⟩⟩)
  else
    let (s, c, applied) := applyValues c values.entries
    (s, c, ⟨matched, unmatched, applied⟩)

/-! ## Export -/

/-- The edits with their values. -/
def editedValues (s : Settings) : List (String × String) :=
  s.edited.codes.filterMap fun code => (s.value? code).map (code, ·)

end Settings

end RegisterImage
