import RegisterImage.Plan.Basic
import RegisterImage.Settings

/-!
# Compiling settings to a plan

Registers are visited in document order. A register contributes nothing, its value, the writes
of its preset, or a run of intermediate values before its value. A register that cannot be
written contributes nothing; compiling as a whole never fails.

## Main definitions

* `Candidate` — a register whose effective value can be written.
* `Register.candidate?` — the candidate for a register under some settings.
* `Candidate.entries` — what a candidate contributes, given its menu.
* `Catalog.compile` — the plan for some settings.
-/

namespace RegisterImage

/-- The value that a register is to have: the stored one, or else its default, or else zero if
it has to be written. -/
def Register.effective? (r : Register) (stored : Option String) : Option String :=
  match stored.filter (· ≠ "") with
  | some value => some value
  | none =>
    if r.defaultHex ≠ "" then some r.defaultHex
    else if r.required then some "0x0"
    else none

/-- A register whose effective value can be written. -/
structure Candidate where
  register : Register
  address : UInt64
  value : UInt64
  width : UInt8
  /-- Whether the value differs from the default. -/
  changed : Bool
  /-- The label of the chosen preset. -/
  chosen : Option String

def Register.candidate? (r : Register) (stored chosen : Option String) : Option Candidate := do
  let address ← r.addressValue?
  let effective ← r.effective? stored
  let changed := !hexEquals effective r.defaultHex
  if changed && !r.accepts effective then none
  else
    let value ← readHex? effective
    let width ← r.width?
    some ⟨r, address, value, width, changed, chosen⟩

namespace Candidate

/-! ## Presets -/

/-- The chosen preset. Only registers with byte fields have one. -/
def preset? (k : Candidate) (menu : Menu) : Option Preset :=
  if k.register.byteFields.isSome then k.chosen.bind menu.preset? else none

/-- Whether the preset writes something else than the default of the register. -/
def presetChanges (k : Candidate) (preset : Option Preset) : Bool :=
  match preset.bind (·.writes) with
  | none => false
  | some writes =>
    !(k.register.defaultValue?.any fun default =>
      Preset.putsAmong writes k.address default k.width)

/-- Whether the register is written at all. -/
def isWritten (k : Candidate) (preset : Option Preset) : Bool :=
  k.changed || k.presetChanges preset || k.register.required || preset.any (·.required)

/-- The entries of the writes of a preset, numbered from the count of the entries before. -/
def presetEntries (code : String) (count : Nat) (writes : List PresetWrite) : List PlanEntry :=
  (writes.filterMap PresetWrite.toDevice?).zipIdx count |>.map fun (write, n) =>
    ⟨code ++ "_write_" ++ decimalText n, write, []⟩

/-! ## Sequences -/

def limit (k : Candidate) : UInt64 :=
  sizeLimit k.width

/-- The sequence of a preset: its own, or that of the register, or that shared by presets
without one. -/
def presetSteps (k : Candidate) (menu : Menu) (preset : Option Preset) : List UInt64 :=
  match preset with
  | none => []
  | some p =>
    let steps := match p.sequence, k.register.sequence with
      | some own, _ => some own
      | none, some shared => shared.sequence?
      | none, none => menu.sharedSequence
    (steps.getD []).filter (· ≤ k.limit)

/-- The value with one field replaced by each step of its selected choice. -/
def fieldSteps (k : Candidate) (f : Field) : List UInt64 :=
  let steps := ((f.selected? k.value).bind (·.sequence)).getD []
  ((steps.filter (· ≤ f.span.limit)).map (f.span.insert k.value)).filter (· ≤ k.limit)

/-- The value with one bit forced to a step, which has to be 0 or 1. -/
def forceBit (value : UInt64) (bit : Nat) (step : UInt64) : Option UInt64 :=
  let mask : UInt64 := 1 <<< UInt64.ofNat bit
  if step = 0 then some (value &&& ~~~mask)
  else if step = 1 then some (value ||| mask)
  else none

/-- The value with one bit forced to each step of its present state. -/
def bitSteps (k : Candidate) (bit : Nat) (labels : BitLabels) : List UInt64 :=
  let isSet := (k.value >>> UInt64.ofNat bit) &&& 1 = 1
  let steps := (labels.sequenceFor isSet).getD []
  (steps.filterMap (forceBit k.value bit)).filter (· ≤ k.limit)

/-- The intermediate values: those of the preset, then those of the fields or of the bits. -/
def steps (k : Candidate) (menu : Menu) (preset : Option Preset) : List UInt64 :=
  k.presetSteps menu preset ++
    match k.register.kind with
    | .plain => []
    | .subfield => menu.fields.flatMap k.fieldSteps
    | .bitfield =>
      if k.register.bitFields.isSome then
        (menu.bits.zipIdx.take (8 * k.width.toNat)).flatMap fun (labels, bit) =>
          k.bitSteps bit labels
      else []

/-! ## Contributions -/

/-- What a register contributes after `count` entries of others. -/
def entries (k : Candidate) (menu : Menu) (count : Nat) : List PlanEntry :=
  let preset := k.preset? menu
  if k.isWritten preset then
    match preset.bind (·.writes) with
    | some writes => presetEntries k.register.code count writes
    | none =>
      match DeviceWrite.ofAddress? k.address k.value k.width with
      | some write =>
        [⟨k.register.code, write, (k.steps menu preset).map UInt64.toUInt32⟩]
      | none => []
  else []

end Candidate

namespace Catalog

/-- The entries after those of one more register, and the menus that have been looked at. -/
def compileRegister (s : Settings) (state : List PlanEntry × MenuMemo) (r : Register) :
    List PlanEntry × MenuMemo :=
  match r.candidate? (s.value? r.code) (s.preset? r.code) with
  | none => state
  | some k =>
    let (menu, memo) := state.2.lookup r
    (state.1 ++ k.entries menu state.1.length, memo)

/-- The plan for some settings, and the catalog that remembers the menus. -/
def compile (c : Catalog) (s : Settings) : Plan × Catalog :=
  let (entries, memo) := c.registers.foldl (compileRegister s) ([], c.memo)
  (⟨entries, c.opening, c.closing⟩, { c with memo })

end Catalog

end RegisterImage
