import RegisterImage.Text.Blank
import RegisterImage.Checksum

/-!
# Chip models

The models of the chip family, the names they go by and the signatures they put into images.

## Main definitions

* `Chip.ofAlias?` — a model by any of its names, in any case.
* `Chip.ofName?` — a model by its exact name.
* `Chip.firmwareSignature`, `Chip.headerSignature` — the marks of a firmware body and of a
  configuration header.
-/

namespace RegisterImage

inductive Chip where
  | prom
  | promLP
  | prom19
  | prom21
  deriving DecidableEq, Repr

namespace Chip

/-- The models in the order in which signatures are tried. -/
def all : List Chip := [prom, promLP, prom19, prom21]

def name : Chip → String
  | prom => "Prom"
  | promLP => "PromLP"
  | prom19 => "Prom19"
  | prom21 => "Prom21"

def partNumber : Chip → String
  | prom => "3306A"
  | promLP => "3306B"
  | prom19 => "3308A"
  | prom21 => "3328A"

/-- The mark of a firmware body, which is also the footer of an image. -/
def firmwareMark (chip : Chip) : String :=
  chip.partNumber ++ "_FW"

/-- The mark of a configuration header. -/
def headerMark (chip : Chip) : String :=
  chip.partNumber ++ "_RCFG"

/-- The bytes of a text of ASCII characters. -/
def asciiBytes (s : String) : Bytes :=
  s.toList.map fun c => UInt8.ofNat c.toNat

def firmwareSignature (chip : Chip) : Bytes :=
  asciiBytes chip.firmwareMark

def headerSignature (chip : Chip) : Bytes :=
  asciiBytes chip.headerMark

/-- The largest firmware body that any model takes. -/
def maxFirmwareSize (_ : Chip) : UInt32 := 0x20000

/-! ## Names -/

def aliases : List (String × Chip) :=
  [("prom", prom), ("promlp", promLP), ("prom lp", promLP), ("prom19", prom19),
    ("prom21", prom21), ("3306a", prom), ("3306b", promLP), ("3308a", prom19),
    ("3328a", prom21)]

/-- A model by one of its aliases; case and blanks around the name do not matter. The aliases
hold no letter that is the lower-case form of a character outside ASCII. -/
def ofAlias? (name : String) : Option Chip :=
  aliases.lookup (String.ofList ((trim name.toList).map Char.toLower))

def ofName? : String → Option Chip
  | "Prom" => some prom
  | "PromLP" | "Prom LP" => some promLP
  | "Prom19" => some prom19
  | "Prom21" => some prom21
  | _ => none

/-- The name of a model on a command line. -/
def ofOption? : String → Option Chip
  | "prom" => some prom
  | "promlp" => some promLP
  | "prom19" => some prom19
  | "prom21" => some prom21
  | _ => none

@[simp] theorem ofName?_name (chip : Chip) : ofName? chip.name = some chip := by
  cases chip <;> rfl

theorem length_firmwareSignature (chip : Chip) : chip.firmwareSignature.length = 8 := by
  cases chip <;> rfl

theorem length_headerSignature (chip : Chip) : chip.headerSignature.length = 10 := by
  cases chip <;> rfl

end Chip

end RegisterImage
