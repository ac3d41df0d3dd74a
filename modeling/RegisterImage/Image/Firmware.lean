import RegisterImage.Chip
import RegisterImage.Image.LittleEndian
import RegisterImage.Text.Numeral

/-!
# Firmware bodies

A firmware body names its chip by a mark somewhere in it, and its version by six bytes at a
fixed place: a date and three numbers.

## Main definitions

* `FirmwareInfo` — chip and version of a body.
* `FirmwareInfo.ofBytes?` — what a body says about itself.
-/

namespace RegisterImage

structure FirmwareInfo where
  chip : Chip
  date : Option String
  size : UInt32
  deriving DecidableEq, Repr

def hexByte (b : UInt8) : String :=
  String.ofList (paddedNumeral 16 2 b.toNat)

/-- The version as text: date and numbers in hexadecimal, with underscores between. -/
def dateText? (bs : Bytes) : Option String :=
  match bs with
  | y :: m :: d :: a :: b :: c :: _ =>
    some (hexByte y ++ hexByte m ++ hexByte d ++ "_" ++ hexByte a ++ "_" ++ hexByte b ++ "_" ++
      hexByte c)
  | _ => none

namespace FirmwareInfo

/-- The first chip whose mark lies in the body, and the version at an offset. -/
def ofBytes? (data : Bytes) (dateOffset : Nat) : Option FirmwareInfo :=
  (Chip.all.find? fun chip => occurs chip.firmwareSignature data).map fun chip =>
    ⟨chip, dateText? (data.drop dateOffset), chip.maxFirmwareSize⟩

def unknownDate : String := "UNKNOWN"

def dateLabel (info : FirmwareInfo) : String :=
  info.date.getD unknownDate

end FirmwareInfo

end RegisterImage
