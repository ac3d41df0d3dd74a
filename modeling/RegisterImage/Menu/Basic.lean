import RegisterImage.Menu.Bits
import RegisterImage.Menu.Field
import RegisterImage.Menu.Preset

/-!
# Menus

The menu of a register is everything its descriptors offer: presets, labels of its bits and
fields. Menus are remembered by the code of the register, so that registers with the same code
share the menu of whichever was looked at first.

## Main definitions

* `Menu`, `Menu.ofRegister` — the menu of a register.
* `MenuMemo` — the menus that have been looked at.
* `MenuMemo.lookup` — the menu of a register and the memo that remembers it.
-/

namespace RegisterImage

structure Menu where
  presets : List Preset
  sharedSequence : Option (List UInt64)
  bits : List BitLabels
  fields : List Field
  deriving DecidableEq, Repr

namespace Menu

def ofRegister (r : Register) : Menu where
  presets := RegisterImage.presets (r.byteFields.getD []) r.initial
  sharedSequence := sharedSequence? (r.byteFields.getD [])
  bits := (r.bitFields.getD []).map BitLabels.ofJson
  fields := (r.subFields.getD []).filterMap (Field.ofSubField? · r)

def preset? (m : Menu) (label : String) : Option Preset :=
  m.presets.find? (·.label = label)

/-- The first preset with a value. -/
def presetFor? (m : Menu) (value : UInt64) : Option Preset :=
  m.presets.find? (·.value = value)

end Menu

/-! ## Remembered menus -/

abbrev MenuMemo := List (String × Menu)

namespace MenuMemo

/-- The remembered menu for the code of a register, or else its own menu, now remembered. -/
def lookup (memo : MenuMemo) (r : Register) : Menu × MenuMemo :=
  match List.lookup r.code memo with
  | some menu => (menu, memo)
  | none => (Menu.ofRegister r, (r.code, Menu.ofRegister r) :: memo)

def forget (memo : MenuMemo) (code : String) : MenuMemo :=
  memo.filter fun e => e.1 ≠ code

end MenuMemo

end RegisterImage
