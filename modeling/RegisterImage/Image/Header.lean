import RegisterImage.Error
import RegisterImage.Image.LittleEndian
import RegisterImage.Plan.Basic

/-!
# Configuration headers

A configuration header carries the writes of a plan. It opens with its own length and the mark
of the chip, goes on with a text and a reserved block, then with one record of eight bytes for
each write, and ends with a checksum and a CRC of all before them.

A header without text has a reserved block of 32 bytes when it has records, and none otherwise.

## Main definitions

* `Info` — the text in a header.
* `encodeRecord` — the record of a write.
* `buildHeader` — the header of a plan.
-/

namespace RegisterImage

/-! ## Texts -/

inductive Info where
  | standard
  | text (s : String)
  | omitted
  deriving DecidableEq, Repr

namespace Info

/-- An empty or missing text stands for the standard one. -/
def ofText : Option String → Info
  | some s => if s.isEmpty then standard else text s
  | none => standard

def standardText : String := "utils.kolabo.dev"

def maxLength : Nat := 16

/-- A character outside ASCII is written as a question mark. -/
def asciiByte (c : Char) : UInt8 :=
  if c.toNat < 0x80 then UInt8.ofNat c.toNat else 0x3F

def textBytes (s : String) : Bytes :=
  (s.toList.take maxLength).map asciiByte

def bytes? : Info → Option Bytes
  | standard => some (textBytes standardText)
  | text s => some (textBytes s)
  | omitted => none

end Info

/-! ## Records -/

def recordMarker : UInt8 := 0xCC

def recordLength : Nat := 8

/-- Segment and size of a write in one byte. -/
def controlByte (w : DeviceWrite) : UInt8 :=
  ((w.segment &&& 0xF) <<< 4) ||| (w.size &&& 0xF)

def encodeRecord (w : DeviceWrite) : Bytes :=
  padTo recordLength 0
    (recordMarker :: controlByte w :: le16 w.offset ++ (le32 w.value).take w.size.toNat)

/-! ## Headers -/

/-- The first 16 bytes of a header. -/
def headerLead (chip : Chip) (length : UInt16) : Bytes :=
  [0x00, 0x00, 0x01, 0x00] ++ le16 length ++ chip.headerSignature

def leadLength : Nat := 16

/-- The text and the reserved block. -/
def infoBlock (info : Info) (hasWrites : Bool) : Bytes :=
  match info.bytes? with
  | some text => padTo 16 0 text ++ List.replicate 16 0
  | none => if hasWrites then List.replicate 32 0 else []

/-- The part of a header after its lead. -/
def headerBody (info : Info) (plan : Plan) : Bytes :=
  infoBlock info (!plan.writes.isEmpty) ++ plan.writes.flatMap encodeRecord

/-- The header of a plan. Its length has to fit 16 bits. -/
def buildHeader (chip : Chip) (info : Info) (plan : Plan) : Except Error Bytes :=
  let body := headerBody info plan
  let length := leadLength + body.length
  if length < 0x10000 then
    let header := headerLead chip (UInt16.ofNat length) ++ body
    .ok (header ++ sealOf header)
  else .error (.headerTooLarge length)

/-- An image: a header, the length of a body, the body, the mark of the chip, checksum and CRC
of the body, filled up to a multiple of 16 bytes. -/
def buildImage (chip : Chip) (header body : Bytes) : Bytes :=
  padTo 16 0xFF
    (header ++ le32 (UInt32.ofNat body.length) ++ body ++ chip.firmwareSignature ++ sealOf body)

end RegisterImage
