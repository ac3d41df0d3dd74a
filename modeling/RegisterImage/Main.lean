import RegisterImage.Command.Report

/-!
# The program

Reads the files that a command may need, runs the command, writes the file that it hands over,
and prints the report.
-/

namespace RegisterImage.Main

def faultOf (e : IO.Error) : SystemFault :=
  match e with
  | .noFileOrDirectory .. => .notFound
  | .inappropriateType _ 20 _ => .notDirectory
  | .inappropriateType _ 21 _ => .isDirectory
  | .resourceBusy .. => .busy
  | e => .other e.toString

/-- What an action gives, or the fault that ended it. -/
def attempt {α : Type} (action : IO α) : IO (Except SystemFault α) := do
  try return .ok (← action)
  catch e => return .error (faultOf e)

def readFile (path : String) : IO (Except SystemFault Bytes) :=
  attempt do return (← IO.FS.readBinFile path).toList

/-- The contents of some files, read once. -/
def readFiles (paths : List String) : IO Files := do
  let contents ← paths.mapM fun path => return (path, ← readFile path)
  return fun path => (contents.lookup path).getD (.error .notFound)

/-- Writes a temporary file beside the target and renames it. -/
def writeFile (path : String) (content : Bytes) : IO (Except WriteFault Unit) := do
  let directory := Path.directory path
  let temporary := Path.join directory (Directory.temporaryName (← IO.monoNanosNow))
  match ← attempt (IO.FS.writeBinFile temporary ⟨content.toArray⟩) with
  | .error fault => return .error (.noTemporary directory fault)
  | .ok () =>
    match ← attempt (IO.FS.rename temporary path) with
    | .ok () => return .ok ()
    | .error fault =>
      IO.FS.removeFile temporary
      return .error (.notReplaced path fault)

def Message.text : Message → String
  | .line text => text
  | .note n => n.line

def present (report : Report) : IO UInt32 := do
  for message in report.messages do
    IO.println (Message.text message)
  for line in report.errors do
    IO.eprintln line
  return UInt32.ofNat report.exitCode

def execute (arguments : List String) : IO Report := do
  match Invocation.ofArguments arguments with
  | .error refusal => return refusal.report
  | .ok i =>
    match Setup.load (← readFiles (i.value? .config).toList) i with
    | .error f => return f.report []
    | .ok s =>
      let command := Command.ofInvocation i
      let attempted := Attempted.ofSetup (← readFiles (command.paths s)) command s
      match attempted.delivery? with
      | none => return attempted.report (.ok ())
      | some delivery =>
        return attempted.report (← writeFile delivery.path delivery.content)

end RegisterImage.Main

def main (arguments : List String) : IO UInt32 := do
  RegisterImage.Main.present (← RegisterImage.Main.execute arguments)
