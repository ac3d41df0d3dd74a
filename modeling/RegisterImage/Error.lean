import RegisterImage.Chip
import RegisterImage.Text.Numeral

/-!
# Errors

What can go wrong, as causes, and the text of each cause.

## Main definitions

* `SystemFault` — a file that cannot be read or written.
* `ContainerFault` — a malformed image.
* `Error` — any failure of the library.
* `Error.message` — the text of an error.
-/

namespace RegisterImage

inductive SystemFault where
  | notFound
  | notDirectory
  | isDirectory
  | busy
  | nameTooLong
  | nulInName
  | notUtf8
  /-- Any other fault, by its text. -/
  | other (text : String)
  deriving DecidableEq, Repr

def SystemFault.message : SystemFault → String
  | notFound => "No such file or directory (os error 2)"
  | notDirectory => "Not a directory (os error 20)"
  | isDirectory => "Is a directory (os error 21)"
  | busy => "Device or resource busy (os error 16)"
  | nameTooLong => "File name too long (os error 36)"
  | nulInName => "file name contained an unexpected NUL byte"
  | notUtf8 => "stream did not contain valid UTF-8"
  | other text => text

inductive ContainerFault where
  | invalidHeaderLength (length : Nat)
  | bodySizeMissing
  | bodyOverrun (offset : Nat) (size : UInt32)
  | footerMissing
  | invalidMarker (offset : Nat)
  | invalidOpcode (offset : Nat) (opcode : UInt8)
  | truncatedValue (offset : Nat)
  deriving DecidableEq, Repr

def ContainerFault.message : ContainerFault → String
  | invalidHeaderLength n => "invalid SPI header length " ++ decimalText n
  | bodySizeMissing => "SPI body size missing"
  | bodyOverrun offset size =>
    "SPI body of " ++ decimalText size.toNat ++ " bytes at " ++ hexText offset ++
      " extends past file size"
  | footerMissing => "SPI footer missing"
  | invalidMarker offset => "invalid CC entry marker at " ++ hexText offset
  | invalidOpcode offset opcode =>
    "invalid CC op " ++ decimalText opcode.toNat ++ " at " ++ hexText offset
  | truncatedValue offset => "invalid CC value at " ++ hexText offset

inductive Error where
  | system (fault : SystemFault)
  | malformedJson
  | unknownRegister (code : String)
  | unknownPreset (key code : String)
  | documentNotObject
  | unsupportedChip (name : String)
  | headerTooLarge (length : Nat)
  | container (chip : Chip) (fault : ContainerFault)
  deriving DecidableEq, Repr

def Error.message : Error → String
  | system fault => fault.message
  | malformedJson => "JSON error"
  | unknownRegister code => "invalid input: unknown register code " ++ code
  | unknownPreset key code => "invalid input: unknown preset '" ++ key ++ "' for " ++ code
  | documentNotObject => "configuration error: register document must be a JSON object"
  | unsupportedChip name => "unsupported chip model: " ++ name
  | headerTooLarge length => "header too large: " ++ decimalText length ++ " bytes"
  | container chip fault => chip.name ++ " container: " ++ fault.message

/-- A model by one of its names, or the error that there is none. -/
def Chip.resolve (name : String) : Except Error Chip :=
  match ofAlias? name <|> ofName? name with
  | some chip => .ok chip
  | none => .error (.unsupportedChip name)

end RegisterImage
