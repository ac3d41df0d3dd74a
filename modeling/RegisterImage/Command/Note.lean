import RegisterImage.Image.Build
import RegisterImage.Plan.Compile

/-!
# Notes

What a command remarks on its way: what was found and what was left out. Each part of the
library has its notes, and a command collects those of the parts that it uses.

## Main definitions

* `Note` — a remark, which is a warning or not.
* `Note.line` — a note as it is printed.
* `imageNotes`, `recordNotes`, `detectionNotes` — what was found in a buffer.
* `catalogNotes`, `applyNotes`, `writeNotes`, `rejectionNotes` — registers and their values.
* `buildNotes` — how an image came about.
-/

namespace RegisterImage

inductive Level where
  | info
  | warning
  deriving DecidableEq, Repr

structure Note where
  level : Level
  text : String
  deriving DecidableEq, Repr

def Note.info (text : String) : Note := ⟨.info, text⟩

def Note.warning (text : String) : Note := ⟨.warning, text⟩

/-! ## Printing -/

/-- A character as a note shows it. Characters that may steer a terminal are shown by their
codes, so that names taken from documents cannot do so. -/
def printedChar (c : Char) : List Char :=
  if c ∈ ['\x07', '\x08', '\x0c', '\x1b', '\x7f'] then
    '\\' :: 'x' :: (paddedNumeral 16 2 c.toNat).map Char.toLower
  else if 0x80 ≤ c.toNat ∧ c.toNat ≤ 0x9f then
    '\\' :: 'u' :: '{' :: (numeral 16 c.toNat).map Char.toLower ++ ['}']
  else [c]

def Level.word : Level → String
  | info => "INFO"
  | warning => "WARN"

/-- A note as it is printed, line breaks in its text included. -/
def Note.line (n : Note) : String :=
  n.level.word ++ " " ++ String.ofList (n.text.toList.flatMap printedChar)

/-! ## Buffers -/

def verdict (ok : Bool) : String :=
  if ok then "ok" else "mismatch"

/-- The notes of looking for an image. One that is malformed is the caller's to report. -/
def imageNotes : Except Error (Option SpiImage) → List Note
  | .ok (some image) =>
    [.info ("SPI image detected: " ++ image.chip.name ++ ", header " ++
      decimalText image.header.length ++ " bytes, body " ++ decimalText image.body.length ++
      " bytes")] ++
    (if image.footerOk then [] else [.warning "SPI footer signature mismatch."]) ++
    (if image.checksumOk && image.crcOk then []
      else [.warning "SPI body checksum/CRC mismatch."])
  | _ => []

/-- The notes of looking for a record table. -/
def recordNotes : Except Error (Option RecordTable) → List Note
  | .ok (some table) =>
    (if table.checksumOk && table.crcOk then []
      else [.warning ("SPI header integrity: checksum " ++ verdict table.checksumOk ++ ", CRC " ++
        verdict table.crcOk)]) ++
    [.info ("SPI header detected: " ++ table.chip.name ++ ", " ++
      decimalText table.writes.length ++ " CC entries")]
  | _ => []

/-- The notes of looking for firmware. Where a record of a capsule is found, no image is looked
for. -/
def detectionNotes (data : Bytes) : List Note :=
  if (embeddedFirmware? data).isSome then [] else imageNotes (SpiImage.ofBytes? data)

/-! ## Registers -/

def catalogNotes (path : String) (c : Catalog) : List Note :=
  (malformedCodes c.document).map (fun code =>
    .warning ("Skipping register item " ++ code ++ ": " ++ Error.malformedJson.message)) ++
  [.info ("Loaded " ++ decimalText c.registers.length ++ " registers from " ++ path)]

def applyNotes (summary : Settings.ApplySummary) : List Note :=
  [.info ("Profile loaded (" ++ decimalText summary.applied ++ " overrides, " ++
    decimalText summary.skipped ++ " skipped).")]

def writeNotes (summary : Settings.WriteSummary) : List Note :=
  if summary.matched = 0 then
    [.info "No CC entries matched registers in the current profile."]
  else
    applyNotes summary.applied ++
    [.info ("CC entries applied (" ++ decimalText summary.matched ++ " matches, " ++
      decimalText summary.unmatched ++ " unmatched).")]

/-- The edits that a plan leaves out because their values may not be written. -/
def rejectionNotes (c : Catalog) (s : Settings) : List Note :=
  s.editedValues.filterMap fun (code, value) =>
    match c.register? code with
    | some r =>
      if r.accepts value then none
      else some (.warning ("Invalid value for " ++ code ++ " (" ++ value ++
        "), will be skipped."))
    | none => none

/-! ## Building -/

def attemptNotes (position : Nat) : Attempt → List Note
  | .noChip => []
  | .badChecksum chip =>
    [.warning ("Found " ++ chip.name ++ " at " ++ hexText position ++
      " with bad checksum, skipped.")]
  | .headerFailed error =>
    [.warning ("Header generation failed at " ++ hexText position ++ ": " ++ error.message)]
  | .built image =>
    [.info ("Extracted " ++ image.chip.name ++ " firmware at " ++ hexText position ++ " -> " ++
      image.name)]

/-- The notes of the attempts up to the first that made an image. -/
def attemptsNotes : List (Nat × Attempt) → List Note
  | [] => [.warning "No valid firmware images found."]
  | (position, attempt) :: attempts =>
    attemptNotes position attempt ++
      if attempt.image?.isSome then [] else attemptsNotes attempts

def extractionNotes (data : Bytes) (plan : Plan) (request : BuildRequest) : List Note :=
  attemptsNotes ((capsuleRecords data).map fun r => (r.1, attempt plan request r.2))

def buildNotes (data : Bytes) (plan : Plan) (request : BuildRequest) : List Note :=
  let found := SpiImage.ofBytes? data
  .info ("Building with " ++ plan.summary ++ ".") :: imageNotes found ++
    match found with
    | .ok (some image) =>
      if image.footerOk then []
      else [.info "SPI footer signature mismatch. Rebuilding with correct footer."]
    | .ok none => extractionNotes data plan request
    | .error e =>
      .warning ("Not rebuilding as SPI image: " ++ e.message) :: extractionNotes data plan request

end RegisterImage
