import RegisterImage.Image.Build
import RegisterImage.Proofs.Access.Capsule

/-!
# Building without slips

Headers and images as they grow in one buffer, with checked access: the length of a header is put
into its lead when all of it is there, records are filled up with all that stands before them, and
a record of a capsule is cut at the length that its own bytes give.

## Main definitions

* `padToChecked`, `putAt` — a buffer filled up, and bytes put into it.
* `buildHeaderChecked_eq`, `buildOutputChecked_eq` — headers and images are built without slips.
* `access_in_bounds` — no access to a buffer slips.
-/

namespace RegisterImage

/-! ## Growing buffers -/

/-- A buffer cut or filled up to a size. -/
def resize (bs : Bytes) (size : Nat) (fill : UInt8) : Bytes :=
  bs.take size ++ List.replicate (size - bs.length) fill

def padToChecked (align : Nat) (fill : UInt8) (bs : Bytes) : Checked Bytes :=
  let rest := bs.length % align
  if rest = 0 then return bs
  else do
    let size ← minus (bs.length + align) rest
    return resize bs size fill

/-- Bytes put between two positions. Their number has to be right. -/
def putAt (bs : Bytes) (first last : Nat) (new : Bytes) : Checked Bytes := do
  let old ← slice bs first last
  if old.length = new.length then return bs.take first ++ new ++ bs.drop last
  else .error (.copy old.length new.length)

theorem resize_add (bs : Bytes) (n : Nat) (fill : UInt8) :
    resize bs (bs.length + n) fill = bs ++ List.replicate n fill := by
  simp [resize]

theorem padToChecked_eq {align : Nat} (hpos : 0 < align) (fill : UInt8) (bs : Bytes) :
    padToChecked align fill bs = .ok (padTo align fill bs) := by
  have hlt := Nat.mod_lt bs.length hpos
  unfold padToChecked padTo
  by_cases hrest : bs.length % align = 0
  · simp [hrest]
  · have hsize : bs.length + align - bs.length % align =
        bs.length + (align - bs.length % align) := by
      omega
    have hmod : (align - bs.length % align) % align = align - bs.length % align :=
      Nat.mod_eq_of_lt (by omega)
    simp only [if_neg hrest, minus_eq_ok (a := bs.length + align) (Nat.le_trans hlt.le (by omega)),
      Checked.ok_bind, hsize, resize_add, hmod]
    rfl

/-- What is filled up after whole units may be filled up alone. -/
theorem padTo_append {align : Nat} {bs : Bytes} (h : bs.length % align = 0) (fill : UInt8)
    (new : Bytes) : padTo align fill (bs ++ new) = bs ++ padTo align fill new := by
  have hlength : (bs ++ new).length % align = new.length % align := by
    rw [List.length_append, Nat.add_mod, h, Nat.zero_add, Nat.mod_mod]
  simp only [padTo, hlength, List.append_assoc]

/-! ## Headers -/

def pushRecordChecked (header : Bytes) (w : DeviceWrite) : Checked Bytes := do
  let value ← slice (le32 w.value) 0 w.size.toNat
  padToChecked recordLength 0
    (header ++ (recordMarker :: controlByte w :: le16 w.offset ++ value))

/-- The first bytes of a header, with two others in the place of its length. -/
def headerMold (chip : Chip) : Bytes :=
  [0x00, 0x00, 0x01, 0x00, 0xFF, 0xFF] ++ chip.headerSignature

/-- The header before its records. -/
def startHeaderChecked (chip : Chip) (info : Info) (hasWrites : Bool) : Checked Bytes :=
  match info.bytes? with
  | some text => do
    let header ← padToChecked 16 0 (headerMold chip ++ text)
    return resize header (header.length + 16) 0
  | none =>
    return if hasWrites then resize (headerMold chip) ((headerMold chip).length + 32) 0
      else headerMold chip

def buildHeaderChecked (chip : Chip) (info : Info) (plan : Plan) :
    Checked (Except Error Bytes) := do
  let start ← startHeaderChecked chip info (!plan.writes.isEmpty)
  let header ← plan.writes.foldlM pushRecordChecked start
  if header.length < 0x10000 then
    let header ← putAt header 4 6 (le16 (UInt16.ofNat header.length))
    return .ok (header ++ sealOf header)
  else return .error (.headerTooLarge header.length)

def buildImageChecked (chip : Chip) (header body : Bytes) : Checked Bytes :=
  padToChecked 16 0xFF
    (header ++ le32 (UInt32.ofNat body.length) ++ body ++ chip.firmwareSignature ++ sealOf body)

theorem pushRecordChecked_eq {header : Bytes} (hwhole : header.length % recordLength = 0)
    {w : DeviceWrite} (hw : IsWidth w.size) :
    pushRecordChecked header w = .ok (header ++ encodeRecord w) := by
  have hsize : w.size.toNat ≤ (le32 w.value).length := width_le_four hw
  rw [pushRecordChecked, slice_eq_ok (Nat.zero_le _) hsize, Checked.ok_bind,
    padToChecked_eq (by decide), padTo_append hwhole]
  rfl

theorem foldlM_pushRecordChecked {header : Bytes} (hwhole : header.length % recordLength = 0)
    {ws : List DeviceWrite} (hws : ∀ w ∈ ws, IsWidth w.size) :
    ws.foldlM pushRecordChecked header = .ok (header ++ ws.flatMap encodeRecord) := by
  induction ws generalizing header with
  | nil => simp
  | cons w ws ih =>
    have hwhole' : (header ++ encodeRecord w).length % recordLength = 0 := by
      rw [List.length_append, Nat.add_mod, hwhole, encodeRecord, length_padTo_mod (by decide)]
      rfl
    rw [List.foldlM_cons, pushRecordChecked_eq hwhole (hws w List.mem_cons_self), Checked.ok_bind,
      ih hwhole' fun w' hw' => hws w' (List.mem_cons_of_mem _ hw')]
    simp

theorem length_headerMold (chip : Chip) : (headerMold chip).length = 16 := by
  simp [headerMold, chip.length_headerSignature]

theorem startHeaderChecked_eq (chip : Chip) (info : Info) (hasWrites : Bool) :
    startHeaderChecked chip info hasWrites =
      .ok (headerMold chip ++ infoBlock info hasWrites) := by
  have hwhole : (headerMold chip).length % 16 = 0 := by
    rw [length_headerMold]
  unfold startHeaderChecked infoBlock
  cases info.bytes? with
  | none =>
    simp only [resize_add]
    cases hasWrites <;> simp
  | some text =>
    simp only [padToChecked_eq (show 0 < 16 by omega), padTo_append hwhole, Checked.ok_bind,
      resize_add, List.append_assoc]
    rfl

theorem length_infoBlock_mod (info : Info) (hasWrites : Bool) :
    (infoBlock info hasWrites).length % recordLength = 0 := by
  unfold infoBlock
  cases info.bytes? with
  | none => cases hasWrites <;> rfl
  | some text =>
    have hpad := length_padTo_mod (show 0 < 16 by omega) 0 text
    simp only [List.length_append, List.length_replicate, recordLength]
    omega

/-- The length is put in the place that was kept for it. -/
theorem putAt_headerMold (chip : Chip) (length : UInt16) (rest : Bytes) :
    putAt (headerMold chip ++ rest) 4 6 (le16 length) = .ok (headerLead chip length ++ rest) := by
  have hlong : 6 ≤ (headerMold chip ++ rest).length := by
    rw [List.length_append, length_headerMold]
    omega
  rw [putAt, slice_eq_ok (by omega) hlong]
  rfl

theorem buildHeaderChecked_eq (chip : Chip) (info : Info) {plan : Plan}
    (hplan : ∀ w ∈ plan.writes, IsWidth w.size) :
    buildHeaderChecked chip info plan = .ok (buildHeader chip info plan) := by
  have hwhole : (headerMold chip ++ infoBlock info (!plan.writes.isEmpty)).length %
      recordLength = 0 := by
    rw [List.length_append, length_headerMold, Nat.add_mod, length_infoBlock_mod]
    rfl
  have hlength : (headerMold chip ++ headerBody info plan).length =
      leadLength + (headerBody info plan).length := by
    rw [List.length_append, length_headerMold]
    rfl
  have hheader : headerMold chip ++ infoBlock info (!plan.writes.isEmpty) ++
      plan.writes.flatMap encodeRecord = headerMold chip ++ headerBody info plan :=
    List.append_assoc ..
  simp only [buildHeaderChecked, startHeaderChecked_eq, foldlM_pushRecordChecked hwhole hplan,
    Checked.ok_bind, hheader, hlength, buildHeader]
  split
  · rw [putAt_headerMold]
    rfl
  · rfl

theorem buildImageChecked_eq (chip : Chip) (header body : Bytes) :
    buildImageChecked chip header body = .ok (buildImage chip header body) :=
  padToChecked_eq (by omega) ..

/-! ## Images -/

def SpiImage.rebuildChecked (image : SpiImage) (plan : Plan) (request : BuildRequest) :
    Checked (Except Error BuiltImage) := do
  match ← buildHeaderChecked image.chip request.info plan with
  | .error error => return .error error
  | .ok header =>
    let data ← buildImageChecked image.chip header image.body
    let date := (image.firmware.map (·.dateLabel)).getD FirmwareInfo.unknownDate
    return .ok ⟨outputName request.profileName date, image.chip, data⟩

/-- The length of a record without its last eight bits. -/
def summedEnd (record : Bytes) : Nat :=
  record.length &&& 0xFFFFFF00

def attemptChecked (plan : Plan) (request : BuildRequest) (record : Bytes) : Checked Attempt := do
  let stored? ← readLe32At record 8
  let sum := ((range? record capsuleLead (summedEnd record)).map byteSum).getD 0
  match ← FirmwareInfo.decodeChecked record capsuleDateOffset with
  | none => return .noChip
  | some info =>
    if stored?.getD 0 ≠ sum ∧ !request.ignoreChecksum then return .badChecksum info.chip
    else
      match ← buildHeaderChecked info.chip request.info plan with
      | .error error => return .headerFailed error
      | .ok header =>
        let available ← minus record.length capsuleLead
        let room := min info.size.toNat available
        if room < envelopeLength + header.length then
          return .headerFailed (.headerTooLarge header.length)
        else
          let size := room - (envelopeLength + header.length)
          let body ← slice record capsuleLead (capsuleLead + size)
          let data ← buildImageChecked info.chip header body
          return .built ⟨outputName request.profileName info.dateLabel, info.chip, data⟩

def extractChecked (data : Bytes) (plan : Plan) (request : BuildRequest) :
    Checked (Option BuiltImage) := do
  let records ← capsuleRecordsChecked data 0
  records.findSomeM? fun r => do
    let attempt ← attemptChecked plan request r.2
    return attempt.image?

def buildOutputChecked (data : Bytes) (plan : Plan) (request : BuildRequest) :
    Checked (Except Error (Option BuiltImage)) := do
  match ← SpiImage.ofBytesChecked data with
  | .ok (some image) =>
    let built ← image.rebuildChecked plan request
    return built.map some
  | _ =>
    let built? ← extractChecked data plan request
    return .ok built?

/-- No length of a record has more than 32 bits, so the mask only clears the last eight. -/
theorem summedEnd_eq {record : Bytes} (h : record.length < 2 ^ 32) :
    summedEnd record = record.length / 256 * 256 := by
  have hmask : 0xFFFFFF00 = (2 ^ 24 - 1) * 2 ^ 8 := rfl
  have hbyte : 256 = 2 ^ 8 := rfl
  apply Nat.eq_of_testBit_eq
  intro i
  rw [summedEnd, hmask, hbyte, Nat.testBit_and, Nat.testBit_mul_two_pow, Nat.testBit_mul_two_pow,
    Nat.testBit_two_pow_sub_one, Nat.testBit_div_two_pow]
  by_cases hlow : 8 ≤ i
  · have hi : i - 8 + 8 = i := by omega
    by_cases hhigh : i < 32
    · have hi' : i - 8 < 24 := by omega
      simp [hlow, hi, hi']
    · have hzero : record.length.testBit i = false :=
        Nat.testBit_lt_two_pow (Nat.lt_of_lt_of_le h (Nat.pow_le_pow_right (by omega) (by omega)))
      simp [hi, hzero]
  · simp [hlow]

/-- A record that ends before its body has no bytes to sum. -/
theorem byteSum_range? {record : Bytes} (h : record.length < 2 ^ 32) :
    ((range? record capsuleLead (summedEnd record)).map byteSum).getD 0 =
      byteSum (summedPart record) := by
  have hle : record.length / 256 * 256 ≤ record.length := Nat.div_mul_le_self ..
  rw [range?, summedPart, summedEnd_eq h, List.drop_take]
  split
  · rfl
  · have hend : record.length / 256 * 256 - capsuleLead = 0 := by omega
    simp [hend, byteSum]

theorem FirmwareInfo.size_of_ofBytes? {data : Bytes} {dateOffset : Nat} {info : FirmwareInfo}
    (h : ofBytes? data dateOffset = some info) : info.size = info.chip.maxFirmwareSize := by
  obtain ⟨chip, -, rfl⟩ := Option.map_eq_some_iff.1 h
  rfl

section Build

variable {plan : Plan} (hplan : ∀ w ∈ plan.writes, IsWidth w.size)
include hplan

theorem SpiImage.rebuildChecked_eq (image : SpiImage) (request : BuildRequest) :
    image.rebuildChecked plan request = .ok (image.rebuild plan request) := by
  simp only [rebuildChecked, rebuild, buildHeaderChecked_eq image.chip request.info hplan,
    buildImageChecked_eq, Checked.ok_bind]
  cases buildHeader image.chip request.info plan <;> rfl

theorem attemptChecked_eq {record : Bytes} (hlead : capsuleLead ≤ record.length)
    (hlong : record.length < 2 ^ 32) (request : BuildRequest) :
    attemptChecked plan request record = .ok (attempt plan request record) := by
  have hstored : (readLe32? (record.drop 8)).getD 0 = storedSum record := rfl
  simp only [attemptChecked, attempt, readLe32At_eq, FirmwareInfo.decodeChecked_eq, hstored,
    byteSum_range? hlong, minus_eq_ok hlead, buildImageChecked_eq, Checked.ok_bind]
  cases hinfo : FirmwareInfo.ofBytes? record capsuleDateOffset with
  | none => rfl
  | some info =>
    simp only [buildHeaderChecked_eq info.chip request.info hplan, Checked.ok_bind,
      FirmwareInfo.size_of_ofBytes? hinfo]
    by_cases hsum : storedSum record ≠ byteSum (summedPart record) ∧ !request.ignoreChecksum
    · simp only [if_pos hsum]
      rfl
    · simp only [if_neg hsum]
      cases buildHeader info.chip request.info plan with
      | error error => rfl
      | ok header =>
        have hbody : min info.chip.maxFirmwareSize.toNat (record.length - capsuleLead) =
            bodyRoom info.chip record := rfl
        have hle : bodyRoom info.chip record ≤ record.length - capsuleLead := Nat.min_le_right ..
        simp only [hbody]
        by_cases hroom : bodyRoom info.chip record < envelopeLength + header.length
        · simp only [if_pos hroom]
          rfl
        · have hfits : capsuleLead + (bodyRoom info.chip record -
              (envelopeLength + header.length)) ≤ record.length := by
            omega
          simp only [if_neg hroom, slice_eq_ok (Nat.le_add_right ..) hfits,
            Nat.add_sub_cancel_left]
          rfl

theorem extractChecked_eq (data : Bytes) (request : BuildRequest) :
    extractChecked data plan request = .ok (extract? data plan request) := by
  rw [extractChecked, capsuleRecordsChecked_eq]
  apply Checked.findSomeM?_eq_ok
  intro r hr
  obtain ⟨hlead, hlong⟩ := length_of_mem_capsuleScan hr
  rw [attemptChecked_eq hplan hlead hlong]
  rfl

theorem buildOutputChecked_eq (data : Bytes) (request : BuildRequest) :
    buildOutputChecked data plan request = .ok (buildOutput data plan request) := by
  simp only [buildOutputChecked, buildOutput, SpiImage.ofBytesChecked_eq, extractChecked_eq hplan,
    SpiImage.rebuildChecked_eq hplan, Checked.ok_bind]
  rcases SpiImage.ofBytes? data with error | (- | image) <;> rfl

end Build

/-- Whatever lengths and sums a buffer gives for its parts, no access to it slips, and each
decoder finds nothing, finds something or tells what is wrong with the container. Nor does an
access slip when an image is built for a plan whose writes have a width. -/
theorem access_in_bounds (data : Bytes) :
    SpiImage.ofBytesChecked data = .ok (SpiImage.ofBytes? data) ∧
    (SpiImage.ofBytes? data = .ok none ∨ (∃ image, SpiImage.ofBytes? data = .ok (some image)) ∨
      ∃ chip fault, SpiImage.ofBytes? data = .error (.container chip fault)) ∧
    RecordTable.ofBytesChecked data = .ok (RecordTable.ofBytes? data) ∧
    (RecordTable.ofBytes? data = .ok none ∨
      (∃ table, RecordTable.ofBytes? data = .ok (some table)) ∨
      ∃ chip fault, RecordTable.ofBytes? data = .error (.container chip fault)) ∧
    embeddedFirmwareChecked data = .ok (embeddedFirmware? data) ∧
    detectFirmwareChecked data = .ok (detectFirmware? data) ∧
    ∀ (plan : Plan) (request : BuildRequest), (∀ w ∈ plan.writes, IsWidth w.size) →
      extractChecked data plan request = .ok (extract? data plan request) ∧
      buildOutputChecked data plan request = .ok (buildOutput data plan request) := by
  refine ⟨SpiImage.ofBytesChecked_eq data, SpiImage.ofBytes?_cases data,
    RecordTable.ofBytesChecked_eq data, RecordTable.ofBytes?_cases data,
    embeddedFirmwareChecked_eq data, detectFirmwareChecked_eq data, ?_⟩
  intro plan request hplan
  exact ⟨extractChecked_eq hplan data request, buildOutputChecked_eq hplan data request⟩

theorem access_in_bounds_of_cut_image :
    let data : Bytes := headerLead .prom19 32 ++ List.replicate 16 0
    let plan : Plan := ⟨[⟨"PHY_MODE", ⟨3, 0x0010, 0x0102, 2⟩, [1, 0xFFFF]⟩], none, none⟩
    let request : BuildRequest := ⟨.omitted, "board 7", false⟩
    (∀ w ∈ plan.writes, IsWidth w.size) ∧
    SpiImage.ofBytesChecked data = .ok (.error (.container .prom19 .bodySizeMissing)) ∧
    buildOutputChecked data plan request = .ok (.ok none) := by
  intro data plan request
  have hplan : ∀ w ∈ plan.writes, IsWidth w.size := by decide
  have himage : SpiImage.ofBytes? data = .error (.container .prom19 .bodySizeMissing) := by
    decide +kernel
  have hrecords : capsuleRecords data = [] := capsuleScan_of_findFrom_eq_none (by decide +kernel)
  have houtput : buildOutput data plan request = .ok none := by
    simp only [buildOutput, himage, extract?, hrecords, List.findSome?_nil]
  obtain ⟨hdecoded, -, -, -, -, -, hbuilt⟩ := access_in_bounds data
  exact ⟨hplan, himage ▸ hdecoded, houtput ▸ (hbuilt plan request hplan).2⟩

end RegisterImage
