import RegisterImage.Command.Run

/-!
# Reports

What is seen of a command from outside: the exit code, what it prints, and what it says about a
failure. A command line that is not accepted has exit code 2, a failed command 1.

## Main definitions

* `Report` — what is seen.
* `Attempted` — a command up to the moment when its file is written.
* `Attempted.report` — the report, given what came of writing.
* `Directory.execute` — a command line carried out in a directory.
-/

namespace RegisterImage

structure Report where
  exitCode : Nat
  messages : List Message
  errors : List String
  deriving DecidableEq, Repr

/-- Whether a message is shown. Quiet commands keep warnings. -/
def Message.isShown (quiet : Bool) : Message → Bool
  | line _ => true
  | note n => !quiet || n.level = .warning

def usage : List String :=
  ["Usage: register-image [OPTIONS] <COMMAND>",
    "",
    "Commands:",
    "  info <IMAGE>     Show chip, firmware date and container integrity of an image",
    "  entries <IMAGE>  List the CC entries stored in an SPI image header",
    "  plan             Print the write plan for the loaded registers and values",
    "  build <IMAGE>    Build an SPI image from an SPI image or a firmware capsule",
    "  import <IMAGE>   Read CC entries from an SPI image and save them as a profile",
    "  header           Write the configuration header alone"]

/-- The report of a command line that is not carried out. -/
def Refusal.report : Refusal → Report
  | rejected => ⟨2, [], usage⟩
  | helpAsked => ⟨0, usage.map .line, []⟩

def Failure.report (f : Failure) (messages : List Message) : Report :=
  ⟨1, messages, f.lines⟩

/-- A command up to the moment when its file is written. -/
structure Attempted where
  quiet : Bool
  messages : List Message
  result : Except Failure (Option Delivery)

namespace Attempted

def ofSetup (files : Files) (command : Command) (s : Setup) : Attempted :=
  let (result, messages) := ((command.run files s).run []).run
  ⟨s.quiet, messages, result⟩

def delivery? (a : Attempted) : Option Delivery :=
  a.result.toOption.bind id

/-- The report, given what came of writing the file. -/
def report (a : Attempted) (written : Except WriteFault Unit) : Report :=
  let shown := List.filter (Message.isShown a.quiet)
  match a.result, written with
  | .error f, _ => f.report (shown a.messages)
  | .ok none, _ => ⟨0, shown a.messages, []⟩
  | .ok (some _), .error fault => (Failure.notWritten fault).report (shown a.messages)
  | .ok (some d), .ok () => ⟨0, shown (a.messages ++ [.note d.note]), []⟩

end Attempted

/-- A command line carried out in a directory. -/
def Directory.execute (d : Directory) (arguments : List String) : Report × Directory :=
  match Invocation.ofArguments arguments with
  | .error refusal => (refusal.report, d)
  | .ok i =>
    match Setup.load d.read i with
    | .error f => (f.report [], d)
    | .ok s =>
      let attempted := Attempted.ofSetup d.read (.ofInvocation i) s
      match attempted.delivery? with
      | none => (attempted.report (.ok ()), d)
      | some delivery =>
        match d.write delivery.path delivery.content with
        | .error fault => (attempted.report (.error fault), d)
        | .ok d => (attempted.report (.ok ()), d)

end RegisterImage
