import RegisterImage.Image.Firmware
import RegisterImage.Image.Records

/-!
# Images

An image is a configuration header, a firmware body and what seals both. A buffer that begins
with the mark of a header is read as an image or is malformed; other buffers are no images.

## Main definitions

* `SpiImage` — a decoded image.
* `SpiImage.ofBytes?` — the image in a buffer.
* `SpiImage.isIntact` — whether every check of an image holds.
-/

namespace RegisterImage

structure SpiImage where
  chip : Chip
  header : Bytes
  headerChecksumOk : Bool
  headerCrcOk : Bool
  body : Bytes
  footer : Bytes
  storedChecksum : UInt8
  storedCrc : UInt32
  firmware : Option FirmwareInfo
  deriving DecidableEq, Repr

namespace SpiImage

def footerOk (i : SpiImage) : Bool :=
  i.footer = i.chip.firmwareSignature

def checksumOk (i : SpiImage) : Bool :=
  i.storedChecksum = checksum8 i.body

def crcOk (i : SpiImage) : Bool :=
  i.storedCrc = crc32 i.body

/-- All checks of header and body hold. -/
def isIntact (i : SpiImage) : Bool :=
  i.headerChecksumOk && i.headerCrcOk && i.footerOk && i.checksumOk && i.crcOk

/-- Where the version stands in the body of an image. -/
def dateOffset : Nat := 0x80

def minLength : Nat := 32

/-- The parts of a buffer, or the first of them that is not there. -/
def decode (chip : Chip) (data : Bytes) : Except ContainerFault SpiImage :=
  let length := declaredLength data
  if length < 16 ∨ data.length < length then .error (.invalidHeaderLength length)
  else
    match readLe32? (data.drop (length + 5)) with
    | none => .error .bodySizeMissing
    | some size =>
      let rest := data.drop (length + 9)
      let body := rest.take size.toNat
      let tail := rest.drop size.toNat
      if rest.length < size.toNat then .error (.bodyOverrun (length + 9) size)
      else if tail.length < 13 then .error .footerMissing
      else .ok {
        chip
        header := data.take length
        headerChecksumOk := checksumHolds data length
        headerCrcOk := crcHolds data length
        body
        footer := tail.take 8
        storedChecksum := (tail.drop 8).headD 0
        storedCrc := (readLe32? (tail.drop 9)).getD 0
        firmware := FirmwareInfo.ofBytes? body dateOffset }

/-- The image in a buffer; none when it does not begin with the mark of a header. -/
def ofBytes? (data : Bytes) : Except Error (Option SpiImage) :=
  if data.length < minLength then .ok none
  else
    match headerChip? data with
    | none => .ok none
    | some chip =>
      match decode chip data with
      | .ok image => .ok (some image)
      | .error fault => .error (.container chip fault)

end SpiImage

end RegisterImage
