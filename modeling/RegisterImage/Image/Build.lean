import RegisterImage.Image.Capsule
import RegisterImage.Text.Blank

/-!
# Building images

An output image is made from an input: the body of an image gets a new header, or the first
usable record of a capsule gets a header and becomes the body.

## Main definitions

* `BuildRequest`, `BuiltImage` — what is asked for and what is made.
* `outputName` — the name of a made image.
* `SpiImage.rebuild` — an image with a new header.
* `attempt` — what becomes of one record of a capsule.
* `extract?` — the image of the first usable record.
* `buildOutput` — the image made from any input.
-/

namespace RegisterImage

structure BuildRequest where
  info : Info
  profileName : String
  ignoreChecksum : Bool
  deriving DecidableEq, Repr

structure BuiltImage where
  name : String
  chip : Chip
  data : Bytes
  deriving DecidableEq, Repr

/-! ## Names -/

def isSeparator (c : Char) : Bool :=
  isBlank c || c = '-'

/-- Every run of blanks and dashes becomes one underscore. -/
def joinWords (afterSeparator : Bool) : List Char → List Char
  | [] => []
  | c :: s =>
    if isSeparator c then
      if afterSeparator then joinWords true s else '_' :: joinWords true s
    else c :: joinWords false s

def outputName (profileName dateLabel : String) : String :=
  String.ofList (joinWords false profileName.toList) ++ "_" ++ dateLabel ++ "_SPI.bin"

/-! ## Images -/

def SpiImage.rebuild (image : SpiImage) (plan : Plan) (request : BuildRequest) :
    Except Error BuiltImage := do
  let header ← buildHeader image.chip request.info plan
  let date := (image.firmware.map (·.dateLabel)).getD FirmwareInfo.unknownDate
  return ⟨outputName request.profileName date, image.chip,
    buildImage image.chip header image.body⟩

/-! ## Capsules -/

/-- What becomes of a record. -/
inductive Attempt where
  | noChip
  | badChecksum (chip : Chip)
  | headerFailed (error : Error)
  | built (image : BuiltImage)
  deriving DecidableEq, Repr

/-- The bytes that the sum of a record covers: the body up to the last whole 256 bytes. -/
def summedPart (record : Bytes) : Bytes :=
  (record.take (record.length / 256 * 256)).drop capsuleLead

def storedSum (record : Bytes) : UInt32 :=
  (readLe32? (record.drop 8)).getD 0

/-- The room at the end of a body that footer, seals and padding of an image take. -/
def envelopeLength : Nat := 0x13

/-- The length of the body that a record leaves for an image with a header. -/
def bodyRoom (chip : Chip) (record : Bytes) : Nat :=
  min chip.maxFirmwareSize.toNat (record.length - capsuleLead)

def attempt (plan : Plan) (request : BuildRequest) (record : Bytes) : Attempt :=
  match FirmwareInfo.ofBytes? record capsuleDateOffset with
  | none => .noChip
  | some info =>
    if storedSum record ≠ byteSum (summedPart record) ∧ !request.ignoreChecksum then
      .badChecksum info.chip
    else
      match buildHeader info.chip request.info plan with
      | .error e => .headerFailed e
      | .ok header =>
        let room := bodyRoom info.chip record
        if room < envelopeLength + header.length then .headerFailed (.headerTooLarge header.length)
        else
          let body := (record.drop capsuleLead).take (room - (envelopeLength + header.length))
          .built ⟨outputName request.profileName info.dateLabel, info.chip,
            buildImage info.chip header body⟩

def Attempt.image? : Attempt → Option BuiltImage
  | built image => some image
  | _ => none

def extract? (data : Bytes) (plan : Plan) (request : BuildRequest) : Option BuiltImage :=
  (capsuleRecords data).findSome? fun r => (attempt plan request r.2).image?

/-- An image is rebuilt; anything else, malformed images included, is searched for records. -/
def buildOutput (data : Bytes) (plan : Plan) (request : BuildRequest) :
    Except Error (Option BuiltImage) :=
  match SpiImage.ofBytes? data with
  | .ok (some image) => (image.rebuild plan request).map some
  | _ => .ok (extract? data plan request)

end RegisterImage
