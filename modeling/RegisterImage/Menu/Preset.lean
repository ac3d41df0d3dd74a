import RegisterImage.Menu.Choice
import RegisterImage.Register.Basic

/-!
# Presets

A preset of a register gives its value a name. It may step through a sequence of values, or
replace the write of the register by a list of writes of its own.

## Main definitions

* `PresetWrite` — a write of a preset as far as it can be read.
* `Preset` — a preset.
* `presets`, `sharedSequence?` — what the byte fields of a register declare: its presets, and
  a sequence for those that have none of their own.
-/

namespace RegisterImage

/-! ## Writes of presets -/

structure PresetWrite where
  address : Option UInt64
  value : Option UInt64
  size : Option UInt64
  deriving DecidableEq, Repr

namespace PresetWrite

/-- The size is one byte when it is absent, null, blank or zero. -/
def sizeOf? (size : Option Json) : Option UInt64 :=
  let size? := match size with
    | none | some .null => some 0
    | some (.str s) => if allBlank s.toList then some 0 else unsigned64? (trim s.toList)
    | some j => j.unsigned?
  size?.map fun n => if n = 0 then 1 else n

def ofJson? : Json → Option PresetWrite
  | .obj es => some {
      address := (Entries.find? es "address").bind Json.hex?
      value := (Entries.first? es ["value", "data"]).bind Json.hex?
      size := sizeOf? (Entries.find? es "size_bytes") }
  | _ => none

/-- The device write, if every part of it was read and the value fits. -/
def toDevice? (w : PresetWrite) : Option DeviceWrite := do
  let size ← w.size
  let address ← w.address
  let value ← w.value
  if size < 256 then DeviceWrite.ofAddress? address value size.toUInt8 else none

/-- Whether the write puts a value of some bytes to an address. -/
def puts (w : PresetWrite) (address value : UInt64) (size : UInt8) : Bool :=
  w.address = some address && w.value = some value && w.size = some size.toUInt64

end PresetWrite

/-! ## Presets -/

/-- A preset is selected by its label. Its writes are there only if it declares a list. -/
structure Preset where
  value : UInt64
  label : String
  sequence : Option (List UInt64)
  writes : Option (List PresetWrite)
  required : Bool
  deriving DecidableEq, Repr

namespace Preset

def valueHex (p : Preset) : String :=
  hexText p.value.toNat

/-- Whether the writes of a preset include the write of a value to the register itself. -/
def putsAmong (writes : List PresetWrite) (address value : UInt64) (size : UInt8) : Bool :=
  writes.any (·.puts address value size)

end Preset

/-- A value that was left open: null or an empty text. -/
def isOpen : Json → Bool
  | .null => true
  | .str s => s.isEmpty
  | _ => false

/-- Whether a declaration counts as a yes. -/
def isYes : Json → Bool
  | .null => false
  | .bool b => b
  | .int n => n ≠ 0
  | .float x => x.magnitude.mantissa ≠ 0
  | .str s => !s.isEmpty
  | .arr _ | .obj _ => true

/-- The value of the first write in a list, which stands for a value left open. -/
def firstWritten? (writes : Json) : Option Json := do
  let first ← (← writes.elements?).find? Json.isObject
  first.first? ["value", "data"]

/-- The value of a preset: its own, or that of its first write, or for a labelled preset the
default of the register. -/
def declaredValue? (d : Draft) (initial : Option Scalar) : Option Json :=
  let value := if isOpen d.value then (d.writes.bind firstWritten?).getD d.value else d.value
  if !isOpen value then some value
  else match d.label, initial with
    | some _, some s => if s.isBlank then none else some s.toJson
    | _, _ => none

/-- The canonical text of a declared value; numbers have to be integers. -/
def declaredHex? : Json → Option String
  | .str s => some (canonicalHex s)
  | j => j.unsigned?.map fun n => hexText n.toNat

def Preset.ofDraft? (d : Draft) (initial : Option Scalar) : Option Preset := do
  let declared ← declaredValue? d initial
  let _ ← declared.number?
  let hex ← declaredHex? declared
  let value ← readHex? hex
  some {
    value
    label := d.label.getD hex
    sequence := d.sequence.bind Json.sequence?
    writes := (d.writes.bind Json.elements?).map (·.filterMap PresetWrite.ofJson?)
    required := d.required.any isYes }

/-! ## Byte fields -/

/-- The presets that one byte field declares. -/
def presetDrafts : Json → List Draft
  | .obj es =>
    if isRecord es then [Draft.ofRecord es]
    else Draft.ofEntries (es.filter fun e => e.1 ≠ "sequence")
  | _ => []

/-- The sequence that a byte field declares for all presets. -/
def fieldSequence? : Json → Option (List UInt64)
  | .obj es =>
    if isRecord es then none else (Entries.find? es "sequence").bind Json.sequence?
  | _ => none

/-- The presets in declared order; those without a readable value are left out. -/
def presets (byteFields : List Json) (initial : Option Scalar) : List Preset :=
  (byteFields.flatMap presetDrafts).filterMap (Preset.ofDraft? · initial)

/-- The sequence for presets without one: the last that is declared. -/
def sharedSequence? (byteFields : List Json) : Option (List UInt64) :=
  (byteFields.filterMap fieldSequence?).getLast?

end RegisterImage
