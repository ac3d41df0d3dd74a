import RegisterImage.Command.Directory

/-!
# Failures

Why a command fails, and what is printed then: the failure, and the causes below it.

## Main definitions

* `Failure` — a failed command.
* `Failure.message`, `Failure.causes` — what failed, and why.
* `Failure.lines` — the printed lines.
-/

namespace RegisterImage

inductive Failure where
  | configUnreadable (path : String) (fault : SystemFault)
  | configMalformed (path : String)
  | configChip (error : Error)
  | fileUnreadable (path : String) (fault : SystemFault)
  | fileMalformed (path : String)
  | imageUnreadable (path : String) (fault : SystemFault)
  | documentMissing
  | documentRefused (path : String) (error : Error)
  | profileEmpty (path : String)
  | chipMissing
  | headerMissing (image : String)
  | headerMalformed (error : Error)
  | headerFailed (error : Error)
  | recordsMissing
  | recordsUnmatched
  | firmwareMissing (image : String)
  | buildFailed (error : Error)
  | notWritten (fault : WriteFault)
  deriving DecidableEq, Repr

namespace Failure

def message : Failure → String
  | configUnreadable path _ => "Failed to read config file '" ++ path ++ "'"
  | configMalformed path => "Failed to parse config file '" ++ path ++ "'"
  | configChip error => "Invalid chip in config: " ++ error.message
  | fileUnreadable path _ => "Failed to read '" ++ path ++ "'"
  | fileMalformed path => "Failed to parse JSON in '" ++ path ++ "'"
  | imageUnreadable path _ => "Failed to read image '" ++ path ++ "'"
  | documentMissing =>
    "Register document must be specified either via --registers or in config file"
  | documentRefused path _ => "Invalid register document '" ++ path ++ "'"
  | profileEmpty path => "No register values found in profile '" ++ path ++ "'"
  | chipMissing => "Chip must be specified either via --chip or in config file"
  | headerMissing image => "'" ++ image ++ "' has no SPI configuration header"
  | headerMalformed _ => "SPI header parse error"
  | headerFailed _ => "Failed to build header"
  | recordsMissing => "No CC entries found in SPI header."
  | recordsUnmatched => "No CC entries matched registers in the current profile."
  | firmwareMissing image => "No valid firmware images found in '" ++ image ++ "'"
  | buildFailed _ => "Failed to build image"
  | notWritten (.noTemporary directory _) => "Failed to create temp file in '" ++ directory ++ "'"
  | notWritten (.notReplaced path _) => "Failed to write '" ++ path ++ "'"

/-- The causes, the nearest one first. -/
def causes : Failure → List String
  | configUnreadable _ fault | fileUnreadable _ fault | imageUnreadable _ fault =>
    [fault.message]
  | configMalformed _ | fileMalformed _ => [Error.malformedJson.message]
  | documentRefused _ error | headerMalformed error | headerFailed error | buildFailed error =>
    [error.message]
  | notWritten (.noTemporary _ fault) => [fault.message]
  | notWritten (.notReplaced _ fault) =>
    ["failed to persist temporary file: " ++ fault.message, fault.message]
  | configChip _ | documentMissing | profileEmpty _ | chipMissing | headerMissing _
  | recordsMissing | recordsUnmatched | firmwareMissing _ => []

/-- One line for each cause, numbered when there are several. -/
def causeLines : List String → List String
  | [cause] => ["    " ++ cause]
  | causes => causes.zipIdx.map fun (cause, n) => "    " ++ decimalText n ++ ": " ++ cause

def lines (f : Failure) : List String :=
  let top := "Error: " ++ f.message
  if f.causes.isEmpty then [top] else top :: "" :: "Caused by:" :: causeLines f.causes

end Failure

end RegisterImage
