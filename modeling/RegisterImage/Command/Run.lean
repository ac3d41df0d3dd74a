import RegisterImage.Command.Listing
import RegisterImage.Command.Setup
import RegisterImage.Profile

/-!
# Running commands

A command reads files, prints lines, remarks on what it finds, and may hand over a file to be
written. It writes nothing itself.

## Main definitions

* `Message` — a printed line or a note.
* `Delivery` — a file to be written.
* `Command.run` — a command.
-/

namespace RegisterImage

inductive Message where
  | line (text : String)
  | note (note : Note)
  deriving DecidableEq, Repr

/-- A file to be written, and the note to make afterwards. -/
structure Delivery where
  path : String
  content : Bytes
  note : Note
  deriving DecidableEq, Repr

/-- Steps of a command, which leave messages and may fail. -/
abbrev Run := ExceptT Failure (StateM (List Message))

namespace Run

def print (lines : List String) : Run Unit :=
  modify (· ++ lines.map .line)

def remark (notes : List Note) : Run Unit :=
  modify (· ++ notes.map .note)

/-- The value of a step that leaves no message. -/
def ofExcept {α : Type} : Except Failure α → Run α :=
  MonadExcept.ofExcept

end Run

/-! ## Reading -/

def readImage (files : Files) (path : String) : Run Bytes :=
  .ofExcept ((files path).mapError (.imageUnreadable path))

def readDocument (files : Files) (path : String) : Run Json := do
  let text ← Run.ofExcept ((files.text path).mapError (.fileUnreadable path))
  match Json.parse? text with
  | some document => return document
  | none => throw (.fileMalformed path)

/-- The table of an image, which has to have one. -/
def readTable (image : String) (data : Bytes) : Run RecordTable := do
  let found := RecordTable.ofBytes? data
  Run.remark (recordNotes found)
  match found with
  | .ok (some table) => return table
  | .ok none => throw (.headerMissing image)
  | .error e => throw (.headerMalformed e)

namespace Setup

variable (files : Files) (s : Setup)

/-- A document with the overlay on it. -/
def merged (base : Json) (overlay : Option Json) : Json :=
  if overlay.isSome || !s.hide.isEmpty then applyOverlay base overlay s.hide else base

/-- The catalog that is asked for, if any is. -/
def catalog? : Run (Option Catalog) := do
  match s.registers with
  | none => return none
  | some path =>
    let base ← readDocument files path
    let overlay ← s.variant.mapM (readDocument files)
    let c ← Run.ofExcept
      ((Catalog.ofDocument (s.merged base overlay)).mapError (.documentRefused path))
    Run.remark (catalogNotes path c)
    return some c

def catalog : Run Catalog := do
  match ← s.catalog? files with
  | some c => return c
  | none => throw .documentMissing

/-! ## Settings -/

/-- The name that a profile document gives itself. -/
def ownName (document : Json) : String :=
  ((document.first? ["profile", "name"]).bind Json.string?).getD ""

/-- The values of the profile and the name that it gives itself. -/
def profileValues (c : Catalog) : Run (List (String × Scalar) × String) := do
  match s.profile with
  | none => return ([], "")
  | some path =>
    let document ← readDocument files path
    match profileValues? document c with
    | some values => return (values, ownName document)
    | none => throw (.profileEmpty path)

/-- The values that come with the setup itself. -/
def ownValues (c : Catalog) : List (String × Scalar) :=
  if s.values.isEmpty then [] else (profileValues? (.obj s.values) c).getD []

/-- What a command works with. -/
structure Prepared where
  catalog : Catalog
  settings : Settings
  profileName : String

/-- The catalog with the settings of the profile, then of the setup itself. -/
def prepare (c : Catalog) : Run Prepared := do
  let (values, name) ← s.profileValues files c
  let values := values ++ s.ownValues c
  let profileName := if s.profileName.isEmpty then name else s.profileName
  if values.isEmpty then return ⟨c, .empty, profileName⟩
  else
    let (settings, c, summary) := Settings.applyValues c values
    Run.remark (applyNotes summary)
    return ⟨c, settings, profileName⟩

/-- The plan that is asked for, and the name for an image with it. -/
def plan : Run (Plan × String) := do
  let ready ← s.prepare files (← s.catalog files)
  Run.remark (rejectionNotes ready.catalog ready.settings)
  return ((ready.catalog.compile ready.settings).1, ready.profileName)

end Setup

/-! ## Commands -/

namespace Command

variable (files : Files) (s : Setup)

def runInfo (image : String) : Run Unit := do
  let data ← readImage files image
  Run.remark (detectionNotes data)
  Run.print (FirmwareInfo.lines (detectFirmware? data))
  Run.remark (imageNotes (SpiImage.ofBytes? data))
  Run.print (SpiImage.lines (SpiImage.ofBytes? data))
  Run.remark (recordNotes (RecordTable.ofBytes? data))
  Run.print (RecordTable.lines (RecordTable.ofBytes? data))

def printRows (format : Format) (title : String) (rows : List Row) : Run Unit :=
  match format with
  | .text => Run.print (title :: rows.map Row.line)
  | .json => Run.print [rowsDocument rows]

def runEntries (image : String) (format : Format) : Run Unit := do
  let table ← readTable image (← readImage files image)
  printRows format table.title (table.rows (← s.catalog? files))

def runPlan (format : Format) : Run Unit := do
  let (p, _) ← s.plan files
  printRows format p.summary p.rows

/-- Where an image is written: to the path that is asked for, or beside the input. -/
def buildTarget (image : String) (built : BuiltImage) : String :=
  s.output.getD (Path.join (Path.parent image) built.name)

def writtenNote (what : String) (path : String) (length : Nat) : Note :=
  .info (what ++ " written: " ++ path ++ " (" ++ decimalText length ++ " bytes)")

def runBuild (image : String) : Run Delivery := do
  let data ← readImage files image
  let (p, profileName) ← s.plan files
  let request := ⟨s.info, profileName, s.ignoreChecksum⟩
  Run.remark (buildNotes data p request)
  match buildOutput data p request with
  | .error e => throw (.buildFailed e)
  | .ok none => throw (.firmwareMissing image)
  | .ok (some built) =>
    let path := buildTarget s image built
    return ⟨path, built.data,
      writtenNote (built.chip.name ++ " image") path built.data.length⟩

def runImport (image : String) : Run (Option Delivery) := do
  let table ← readTable image (← readImage files image)
  if !table.checksumOk || !table.crcOk then
    Run.remark [.warning "SPI header checksum/CRC mismatch, applying entries anyway."]
  if table.writes.isEmpty then throw .recordsMissing
  let ready ← s.prepare files (← s.catalog files)
  let (settings, _, summary) := ready.settings.applyWrites ready.catalog table.writes
  Run.remark (writeNotes summary)
  if summary.matched = 0 then throw .recordsUnmatched
  let profile := settings.toProfile ready.profileName table.chip.name
  let text := profile.toJson.pretty
  match s.output with
  | none =>
    Run.print [text]
    return none
  | some path =>
    return some ⟨path, encodeUtf8 text,
      .info ("Profile written: " ++ path ++ " (" ++ decimalText profile.values.size ++
        " values)")⟩

def runHeader (output : String) : Run Delivery := do
  match s.chip with
  | none => throw .chipMissing
  | some chip =>
    let (p, _) ← s.plan files
    let bytes ← Run.ofExcept ((buildHeader chip s.info p).mapError .headerFailed)
    return ⟨output, bytes, writtenNote (chip.name ++ " header") output bytes.length⟩

/-- The files that a command may read. -/
def paths (s : Setup) (command : Command) : List String :=
  let image := match command with
    | info image | entries image _ | build image | .import image => some image
    | plan _ | header _ => none
  [image, s.registers, s.variant, s.profile].filterMap id

/-- A command. The result is the file to be written, if there is one. -/
def run : Command → Run (Option Delivery)
  | info image => do runInfo files image; return none
  | entries image format => do runEntries files s image format; return none
  | plan format => do runPlan files s format; return none
  | build image => do return some (← runBuild files s image)
  | .import image => runImport files s image
  | header output => do return some (← runHeader files s output)

end Command

end RegisterImage
