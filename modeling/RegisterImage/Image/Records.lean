import RegisterImage.Image.Header

/-!
# Record tables

The writes in a configuration header, read back. The region of records is read in strides of
eight bytes, of which each holds a record or zeros. Whether it begins after a text can be told
from the length of the header alone.

## Main definitions

* `headerChip?` — the chip of the configuration header at the front of a buffer.
* `decodeRecord` — one stride.
* `RecordTable.ofBytes?` — the table of the header at the front of a buffer.
-/

namespace RegisterImage

/-! ## Headers at the front of a buffer -/

def headerChip? (data : Bytes) : Option Chip :=
  Chip.all.find? fun chip => (data.drop 6).take 10 = chip.headerSignature

/-- The length that a header gives for itself, without checksum and CRC. -/
def declaredLength (data : Bytes) : Nat :=
  ((readLe16? (data.drop 4)).getD 0).toNat

/-- Whether the byte after the first `length` is their checksum. -/
def checksumHolds (data : Bytes) (length : Nat) : Bool :=
  (data.drop length).head? = some (checksum8 (data.take length))

/-- Whether the CRC of the first `length` bytes follows their checksum. -/
def crcHolds (data : Bytes) (length : Nat) : Bool :=
  readLe32? (data.drop (length + 1)) = some (crc32 (data.take length))

/-! ## Records -/

/-- The write in the stride at the front of `bs`; none for a stride of zeros. The stride has
`room` bytes of the header left, and lies at `offset` in the buffer. -/
def decodeRecord (bs : Bytes) (room offset : Nat) :
    Except ContainerFault (Option DeviceWrite) :=
  match bs with
  | marker :: control :: rest =>
    if marker ≠ recordMarker then
      if (bs.take (min recordLength room)).all (· = 0) then .ok none
      else .error (.invalidMarker offset)
    else
      let size := control &&& 0xF
      if IsWidth size then
        match readLe16? rest, readSized? size.toNat (rest.drop 2) with
        | some address, some value =>
          .ok (some ⟨control >>> 4, address, value, size⟩)
        | _, _ => .error (.truncatedValue offset)
      else .error (.invalidOpcode offset size)
  | _ => .error (.truncatedValue offset)

/-- The writes in the strides at the front of `bs`, as long as a stride has four bytes of the
header left. -/
def decodeRecords (bs : Bytes) (room offset : Nat) : Except ContainerFault (List DeviceWrite) :=
  if 4 ≤ room then do
    let write? ← decodeRecord bs room offset
    let writes ← decodeRecords (bs.drop recordLength) (room - recordLength) (offset + recordLength)
    return write?.toList ++ writes
  else return []
termination_by room
decreasing_by simp only [recordLength]; omega

/-- Where the records begin in a header of some length. -/
def recordStart (headerLength : Nat) : Nat :=
  if 48 ≤ headerLength then 48 else 16

/-! ## Tables -/

structure RecordTable where
  chip : Chip
  headerLength : Nat
  checksumOk : Bool
  crcOk : Bool
  writes : List DeviceWrite
  deriving DecidableEq, Repr

namespace RecordTable

def decode (chip : Chip) (data : Bytes) (headerLength : Nat) :
    Except ContainerFault RecordTable := do
  let start := recordStart headerLength
  let writes ← decodeRecords (data.drop start) (headerLength - start) start
  return {
    chip
    headerLength
    checksumOk := checksumHolds data headerLength
    crcOk := crcHolds data headerLength
    writes }

/-- The table of a buffer that begins with a whole header; none when it does not. -/
def ofBytes? (data : Bytes) : Except Error (Option RecordTable) :=
  match headerChip? data with
  | none => .ok none
  | some chip =>
    let length := declaredLength data
    if 16 ≤ length ∧ length + 5 ≤ data.length then
      match decode chip data length with
      | .ok table => .ok (some table)
      | .error fault => .error (.container chip fault)
    else .ok none

end RecordTable

end RegisterImage
