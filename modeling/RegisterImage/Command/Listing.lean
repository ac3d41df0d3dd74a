import RegisterImage.Command.Note
import RegisterImage.Json.Printer

/-!
# Listings

The lines in which commands print writes and images.

## Main definitions

* `Row` — a printed write and the codes it belongs to.
* `Row.line`, `Row.toJson` — a row as a line and as a document.
* `FirmwareInfo.lines`, `SpiImage.lines` — what is said about a buffer.
-/

namespace RegisterImage

structure Row where
  codes : List String
  write : DeviceWrite
  deriving DecidableEq, Repr

namespace Row

/-- The address has at least five digits. -/
def address (r : Row) : String :=
  String.ofList ('0' :: 'x' :: paddedNumeral 16 5 r.write.address.toNat)

/-- The value has two digits for each byte. -/
def value (r : Row) : String :=
  String.ofList ('0' :: 'x' :: paddedNumeral 16 (2 * r.write.size.toNat) r.write.value.toNat)

def line (r : Row) : String :=
  "  " ++ r.address ++ " [" ++ decimalText r.write.size.toNat ++ "] = " ++ r.value ++
    if r.codes.isEmpty then "" else "  (" ++ ", ".intercalate r.codes ++ ")"

def toJson (r : Row) : Json :=
  .obj ((if r.codes.isEmpty then [] else [("codes", .arr (r.codes.map .str))]) ++
    [("address", .str r.address), ("size_bytes", .int r.write.size.toNat),
      ("value", .str r.value)])

end Row

def rowsDocument (rows : List Row) : String :=
  (Json.arr (rows.map Row.toJson)).pretty

/-! ## Tables and plans -/

/-- The rows of a table, with the codes of the registers at each address when there is a
catalog. -/
def RecordTable.rows (table : RecordTable) (c : Option Catalog) : List Row :=
  table.writes.map fun w =>
    ⟨c.elim [] fun c => (c.matching w.slot).map (·.code), w⟩

def RecordTable.title (table : RecordTable) : String :=
  let notes :=
    (if table.checksumOk then [] else ["checksum mismatch"]) ++
      if table.crcOk then [] else ["CRC mismatch"]
  table.chip.name ++ ": " ++ decimalText table.writes.length ++ " CC entries" ++
    if notes.isEmpty then "" else " (" ++ ", ".intercalate notes ++ ")"

def Plan.rows (p : Plan) : List Row :=
  (p.opening.toList.map fun w => ⟨["prefix"], w⟩) ++
    (p.entries.flatMap fun e => e.expand.map fun w => ⟨[e.code], w⟩) ++
    p.closing.toList.map fun w => ⟨["suffix"], w⟩

/-! ## Images -/

def FirmwareInfo.lines : Option FirmwareInfo → List String
  | some info =>
    ["Chip:             " ++ info.chip.name,
      "Firmware version: " ++ info.dateLabel,
      "Max size:         " ++ hexText info.size.toNat]
  | none => ["Firmware version: " ++ unknownDate]

def SpiImage.lines : Except Error (Option SpiImage) → List String
  | .ok (some image) =>
    ["SPI header:       " ++ decimalText image.header.length ++ " bytes",
      "SPI body:         " ++ decimalText image.body.length ++ " bytes",
      "Header checksum:  " ++ verdict image.headerChecksumOk,
      "Header CRC:       " ++ verdict image.headerCrcOk,
      "Footer:           " ++ verdict image.footerOk,
      "Body checksum:    " ++ verdict image.checksumOk,
      "Body CRC:         " ++ verdict image.crcOk]
  | .ok none => []
  | .error e => ["SPI image:        " ++ e.message]

def RecordTable.lines : Except Error (Option RecordTable) → List String
  | .ok (some table) => ["CC entries:       " ++ decimalText table.writes.length]
  | _ => []

end RegisterImage
