import RegisterImage.Proofs.Access.Checked
import RegisterImage.Proofs.Image.FromHeader
import RegisterImage.Proofs.Image.Parts

/-!
# Decoding without slips

The decoders of images and tables, with every access at a position of the buffer and checked. The
length of the header and the size of the body are whatever the buffer says, and yet no access
slips.

## Main definitions

* `SpiImage.decodeChecked`, `RecordTable.decodeChecked` — the decoders with checked access.
* `SpiImage.decodeChecked_eq`, `RecordTable.decodeChecked_eq` — they do not slip, and they are the
  decoders.
-/

namespace RegisterImage

/-! ## Headers and versions -/

def headerChipChecked (data : Bytes) : Option Chip :=
  Chip.all.find? fun chip =>
    range? data 6 (6 + chip.headerSignature.length) = some chip.headerSignature

def declaredLengthChecked (data : Bytes) : Checked Nat := do
  let length? ← readLe16At data 4
  return (length?.getD 0).toNat

def dateTextChecked (data : Bytes) (offset : Nat) : Checked (Option String) :=
  match range? data offset (offset + 6) with
  | none => return none
  | some date => do
    let y ← byteAt date 0
    let m ← byteAt date 1
    let d ← byteAt date 2
    let a ← byteAt date 3
    let b ← byteAt date 4
    let c ← byteAt date 5
    return some (hexByte y ++ hexByte m ++ hexByte d ++ "_" ++ hexByte a ++ "_" ++ hexByte b ++
      "_" ++ hexByte c)

def FirmwareInfo.decodeChecked (data : Bytes) (dateOffset : Nat) :
    Checked (Option FirmwareInfo) :=
  match Chip.all.find? fun chip => (findBytes data chip.firmwareSignature 0).isSome with
  | none => return none
  | some chip => do
    let date ← dateTextChecked data dateOffset
    return some ⟨chip, date, chip.maxFirmwareSize⟩

theorem headerChipChecked_eq (data : Bytes) : headerChipChecked data = headerChip? data := by
  have hsignature : ∀ chip : Chip,
      range? data 6 (6 + chip.headerSignature.length) = some chip.headerSignature ↔
        (data.drop 6).take 10 = chip.headerSignature := by
    intro chip
    have hlength := chip.length_headerSignature
    rw [range?_add data 6 (by omega), hlength]
    split
    · simp
    · rename_i hshort
      simp only [reduceCtorEq, false_iff]
      intro heq
      have hcount := congrArg List.length heq
      rw [List.length_take, hlength] at hcount
      omega
  simp only [headerChipChecked, headerChip?, hsignature]

theorem declaredLengthChecked_eq (data : Bytes) :
    declaredLengthChecked data = .ok (declaredLength data) := by
  simp [declaredLengthChecked, declaredLength, readLe16At_eq]

theorem dateTextChecked_eq (data : Bytes) (offset : Nat) :
    dateTextChecked data offset = .ok (dateText? (data.drop offset)) := by
  rw [dateTextChecked, range?_add data offset (by omega)]
  rcases data.drop offset with
    - | ⟨y, - | ⟨m, - | ⟨d, - | ⟨a, - | ⟨b, - | ⟨c, rest⟩⟩⟩⟩⟩⟩ <;> rfl

theorem FirmwareInfo.decodeChecked_eq (data : Bytes) (dateOffset : Nat) :
    decodeChecked data dateOffset = .ok (ofBytes? data dateOffset) := by
  have hne : ∀ chip : Chip, chip.firmwareSignature ≠ [] := by
    intro chip hnil
    have hlength := chip.length_firmwareSignature
    simp [hnil] at hlength
  simp only [decodeChecked, ofBytes?, isSome_findBytes (hne _), dateTextChecked_eq]
  cases Chip.all.find? fun chip => occurs chip.firmwareSignature data <;> rfl

/-! ## Images -/

namespace SpiImage

/-- The image that is cut out of a buffer when its header and its body have some lengths. -/
def partsChecked (chip : Chip) (data : Bytes) (length size : Nat) : Checked SpiImage := do
  let bodyStart := length + 9
  let bodyEnd := bodyStart + size
  let footerEnd := bodyEnd + chip.firmwareSignature.length
  let header ← slice data 0 length
  let body ← slice data bodyStart bodyEnd
  let footer ← slice data bodyEnd footerEnd
  let storedChecksum ← byteAt data footerEnd
  let storedCrc ← readLe32At data (footerEnd + 1)
  let headerSum ← byteAt data length
  let headerCrc ← readLe32At data (length + 1)
  let firmware ← FirmwareInfo.decodeChecked body dateOffset
  return {
    chip
    header
    headerChecksumOk := headerSum = checksum8 header
    headerCrcOk := headerCrc = some (crc32 header)
    body
    footer
    storedChecksum
    storedCrc := storedCrc.getD 0
    firmware }

def decodeChecked (chip : Chip) (data : Bytes) : Checked (Except ContainerFault SpiImage) := do
  let length ← declaredLengthChecked data
  if length < 16 ∨ data.length < length then return .error (.invalidHeaderLength length)
  else
    match ← readLe32At data (length + 5) with
    | none => return .error .bodySizeMissing
    | some size =>
      let bodyEnd := length + 9 + size.toNat
      if data.length < bodyEnd then return .error (.bodyOverrun (length + 9) size)
      else if data.length < bodyEnd + chip.firmwareSignature.length + 5 then
        return .error .footerMissing
      else
        let image ← partsChecked chip data length size.toNat
        return .ok image

def ofBytesChecked (data : Bytes) : Checked (Except Error (Option SpiImage)) :=
  if data.length < minLength then return .ok none
  else
    match headerChipChecked data with
    | none => return .ok none
    | some chip => do
      match ← decodeChecked chip data with
      | .ok image => return .ok (some image)
      | .error fault => return .error (.container chip fault)

theorem partsChecked_eq (chip : Chip) {data : Bytes} {length size : Nat}
    (hroom : length + 9 + size + 13 ≤ data.length) :
    partsChecked chip data length size = .ok (parts chip data length size) := by
  have hfirst : length < data.length := by omega
  have hlast : length + 9 + size + 8 < data.length := by omega
  have hbyte := List.getElem?_eq_getElem hfirst
  have hbyte' := List.getElem?_eq_getElem hlast
  simp only [partsChecked, chip.length_firmwareSignature]
  rw [slice_eq_ok (by omega) (by omega), slice_eq_ok (by omega) (by omega),
    slice_eq_ok (by omega) (by omega), byteAt_eq_ok hbyte', byteAt_eq_ok hbyte]
  simp [parts, readLe32At_eq, FirmwareInfo.decodeChecked_eq, checksumHolds, crcHolds,
    List.head?_drop, List.headD_eq_head?_getD, hbyte, hbyte']

theorem le_of_readLe32?_eq_some {bs : Bytes} {w : UInt32} (h : readLe32? bs = some w) :
    4 ≤ bs.length := by
  rcases bs with - | ⟨a, - | ⟨b, - | ⟨c, - | ⟨d, bs⟩⟩⟩⟩ <;> simp_all [readLe32?]

/-- What is missing in a buffer, told by positions in it. -/
theorem decode_of_size {chip : Chip} {data : Bytes}
    (hlength : ¬(declaredLength data < 16 ∨ data.length < declaredLength data)) {size : UInt32}
    (hsize : readLe32? (data.drop (declaredLength data + 5)) = some size) :
    decode chip data =
      if data.length < declaredLength data + 9 + size.toNat then
        .error (.bodyOverrun (declaredLength data + 9) size)
      else if data.length < declaredLength data + 9 + size.toNat + 13 then .error .footerMissing
      else .ok (parts chip data (declaredLength data) size.toNat) := by
  have hlong := le_of_readLe32?_eq_some hsize
  rw [List.length_drop] at hlong
  have hbody : data.length - (declaredLength data + 9) < size.toNat ↔
      data.length < declaredLength data + 9 + size.toNat := by
    omega
  have htail : data.length - (declaredLength data + 9 + size.toNat) < 13 ↔
      data.length < declaredLength data + 9 + size.toNat + 13 := by
    omega
  simp only [decode, if_neg hlength, hsize, List.length_drop, List.drop_drop, hbody, htail, parts]

theorem decodeChecked_eq (chip : Chip) (data : Bytes) :
    decodeChecked chip data = .ok (decode chip data) := by
  simp only [decodeChecked, declaredLengthChecked_eq, Checked.ok_bind, readLe32At_eq]
  by_cases hlength : declaredLength data < 16 ∨ data.length < declaredLength data
  · simp [decode, hlength]
  · cases hsize : readLe32? (data.drop (declaredLength data + 5)) with
    | none => simp [decode, hlength, hsize]
    | some size =>
      simp only [decode_of_size hlength hsize, if_neg hlength, chip.length_firmwareSignature]
      split
      · rfl
      · split
        · rfl
        · rw [partsChecked_eq chip (by omega)]
          rfl

theorem ofBytesChecked_eq (data : Bytes) : ofBytesChecked data = .ok (ofBytes? data) := by
  simp only [ofBytesChecked, ofBytes?, headerChipChecked_eq, decodeChecked_eq, Checked.ok_bind]
  split
  · rfl
  · cases headerChip? data with
    | none => rfl
    | some chip =>
      simp only
      cases decode chip data <;> rfl

theorem ofBytes?_cases (data : Bytes) : ofBytes? data = .ok none ∨
    (∃ image, ofBytes? data = .ok (some image)) ∨
    ∃ chip fault, ofBytes? data = .error (.container chip fault) := by
  unfold ofBytes?
  grind

end SpiImage

/-! ## Tables -/

def decodeRecordChecked (data : Bytes) (length offset : Nat) :
    Checked (Except ContainerFault (Option DeviceWrite)) := do
  let marker ← byteAt data offset
  if marker ≠ recordMarker then
    let stride ← slice data offset (min (offset + recordLength) length)
    if stride.any (· ≠ 0) then return .error (.invalidMarker offset) else return .ok none
  else
    let control ← byteAt data (offset + 1)
    let size := control &&& 0xF
    if IsWidth size then
      match ← readLe16At data (offset + 2), readSizedAt data (offset + 4) size.toNat with
      | some address, some value => return .ok (some ⟨control >>> 4, address, value, size⟩)
      | _, _ => return .error (.truncatedValue offset)
    else return .error (.invalidOpcode offset size)

def decodeRecordsChecked (data : Bytes) (length offset : Nat) :
    Checked (Except ContainerFault (List DeviceWrite)) :=
  if offset + 4 ≤ length then do
    match ← decodeRecordChecked data length offset with
    | .error fault => return .error fault
    | .ok write? =>
      match ← decodeRecordsChecked data length (offset + recordLength) with
      | .error fault => return .error fault
      | .ok writes => return .ok (write?.toList ++ writes)
  else return .ok []
termination_by length - offset
decreasing_by simp only [recordLength]; omega

namespace RecordTable

def decodeChecked (chip : Chip) (data : Bytes) (length : Nat) :
    Checked (Except ContainerFault RecordTable) := do
  let header ← slice data 0 length
  let sum ← byteAt data length
  let crc ← readLe32At data (length + 1)
  match ← decodeRecordsChecked data length (recordStart length) with
  | .error fault => return .error fault
  | .ok writes =>
    return .ok {
      chip
      headerLength := length
      checksumOk := sum = checksum8 header
      crcOk := crc = some (crc32 header)
      writes }

def ofBytesChecked (data : Bytes) : Checked (Except Error (Option RecordTable)) :=
  if data.length < 16 then return .ok none
  else
    match headerChipChecked data with
    | none => return .ok none
    | some chip => do
      let length ← declaredLengthChecked data
      if length < 16 ∨ data.length < length + 5 then return .ok none
      else
        match ← decodeChecked chip data length with
        | .error fault => return .error (.container chip fault)
        | .ok table => return .ok (some table)

end RecordTable

section Records

variable {data : Bytes} {length offset : Nat}

theorem decodeRecordChecked_eq (hroom : offset + 4 ≤ length) (hlength : length ≤ data.length) :
    decodeRecordChecked data length offset =
      .ok (decodeRecord (data.drop offset) (length - offset) offset) := by
  obtain ⟨marker, hmarker⟩ : ∃ marker, data[offset]? = some marker :=
    ⟨_, List.getElem?_eq_getElem (by omega)⟩
  obtain ⟨control, hcontrol⟩ : ∃ control, data[offset + 1]? = some control :=
    ⟨_, List.getElem?_eq_getElem (by omega)⟩
  have hsplit := drop_eq_of_getElem? hmarker hcontrol
  have hstride : min (offset + recordLength) length - offset =
      min recordLength (length - offset) := by
    omega
  rw [decodeRecordChecked, byteAt_eq_ok hmarker, byteAt_eq_ok hcontrol, slice_eq_ok (by omega)
    (by omega), hstride]
  simp only [Checked.ok_bind, hsplit, decodeRecord, readLe16At_eq]
  by_cases hmark : marker ≠ recordMarker
  · generalize (marker :: control :: data.drop (offset + 2)).take _ = stride
    have hany : (stride.any fun b => b ≠ 0) = !stride.all (· = 0) := by
      simp [List.not_all_eq_any_not]
    simp only [if_pos hmark, hany]
    cases stride.all (· = 0) <;> rfl
  · by_cases hwidth : IsWidth (control &&& 0xF)
    · have hpos : 0 < (control &&& 0xF).toNat := by
        rcases hwidth with h | h | h <;> rw [h] <;> decide
      have hvalue : (data.drop (offset + 2)).drop 2 = data.drop (offset + 4) := List.drop_drop
      simp only [if_neg hmark, if_pos hwidth, readSizedAt_eq data _ hpos, hvalue]
      cases readLe16? (data.drop (offset + 2)) <;>
        cases readSized? (control &&& 0xF).toNat (data.drop (offset + 4)) <;> rfl
    · simp only [if_neg hmark, if_neg hwidth]
      rfl

theorem decodeRecordsChecked_eq (hlength : length ≤ data.length) :
    decodeRecordsChecked data length offset =
      .ok (decodeRecords (data.drop offset) (length - offset) offset) := by
  fun_induction decodeRecordsChecked data length offset with
  | case1 offset hroom ih =>
    have hroom' : 4 ≤ length - offset := by omega
    rw [decodeRecords, if_pos hroom', decodeRecordChecked_eq hroom hlength, List.drop_drop,
      Nat.sub_sub, Checked.ok_bind]
    cases decodeRecord (data.drop offset) (length - offset) offset with
    | error fault => rfl
    | ok write? =>
      simp only [ih, Checked.ok_bind]
      cases decodeRecords (data.drop (offset + recordLength)) (length - (offset + recordLength))
        (offset + recordLength) <;> rfl
  | case2 offset hroom =>
    have hroom' : ¬4 ≤ length - offset := by omega
    rw [decodeRecords, if_neg hroom']
    rfl

namespace RecordTable

theorem decodeChecked_eq (chip : Chip) (hlength : length + 5 ≤ data.length) :
    decodeChecked chip data length = .ok (decode chip data length) := by
  obtain ⟨sum, hsum⟩ : ∃ sum, data[length]? = some sum :=
    ⟨_, List.getElem?_eq_getElem (by omega)⟩
  have hwhole : length ≤ data.length := by omega
  rw [decodeChecked, slice_eq_ok (by omega) hwhole, byteAt_eq_ok hsum, readLe32At_eq,
    decodeRecordsChecked_eq hwhole]
  simp only [Checked.ok_bind, decode, checksumHolds, crcHolds, List.head?_drop, hsum]
  cases decodeRecords (data.drop (recordStart length)) (length - recordStart length)
    (recordStart length) with
  | error fault => rfl
  | ok writes => simp [bind, Except.bind, pure, Except.pure]

theorem headerChip?_of_short (hshort : data.length < 16) : headerChip? data = none := by
  apply List.find?_eq_none.2
  intro chip _ hsignature
  have hlength := congrArg List.length (of_decide_eq_true hsignature)
  rw [List.length_take, List.length_drop, chip.length_headerSignature] at hlength
  omega

theorem ofBytesChecked_eq (data : Bytes) : ofBytesChecked data = .ok (ofBytes? data) := by
  simp only [ofBytesChecked, ofBytes?, headerChipChecked_eq, declaredLengthChecked_eq,
    Checked.ok_bind]
  split
  · rename_i hshort
    simp [headerChip?_of_short hshort]
  · cases headerChip? data with
    | none => rfl
    | some chip =>
      by_cases hlength : 16 ≤ declaredLength data ∧ declaredLength data + 5 ≤ data.length
      · have hlength' : ¬(declaredLength data < 16 ∨ data.length < declaredLength data + 5) := by
          omega
        simp only [if_pos hlength, if_neg hlength', decodeChecked_eq chip hlength.2,
          Checked.ok_bind]
        cases decode chip data (declaredLength data) <;> rfl
      · have hlength' : declaredLength data < 16 ∨ data.length < declaredLength data + 5 := by
          omega
        simp [hlength, hlength']

theorem ofBytes?_cases (data : Bytes) : ofBytes? data = .ok none ∨
    (∃ table, ofBytes? data = .ok (some table)) ∨
    ∃ chip fault, ofBytes? data = .error (.container chip fault) := by
  unfold ofBytes?
  grind

end RecordTable

end Records

end RegisterImage
