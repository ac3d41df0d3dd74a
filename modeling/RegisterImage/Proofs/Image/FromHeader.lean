import RegisterImage.Proofs.Image.Strides

/-!
# Tables from headers

Which bytes of a buffer decide the table of its header. A table comes from its header alone unless
the header ends inside a record, or in a rest that is too short for one and not zero.

## Main definitions

* `RecordTable.strides_of_ofBytes?` — a table has the writes in the strides of its header.
* `RecordTable.FromHeader` — a table that depends on nothing but its header.
* `RecordTable.EndsWhole` — a header whose last stride is looked at in full.
* `RecordTable.fromHeader_iff` — which tables come from their headers alone.
-/

namespace RegisterImage

namespace RecordTable

variable {data data' : Bytes} {table table' : RecordTable}

theorem recordStart_cases (length : Nat) :
    recordStart length = 16 ∨ recordStart length = 48 ∧ 48 ≤ length := by
  unfold recordStart
  split <;> simp [*]

theorem ofBytes?_eq_ok_some_iff : ofBytes? data = .ok (some table) ↔
    ∃ chip, headerChip? data = some chip ∧ 16 ≤ declaredLength data ∧
      declaredLength data + 5 ≤ data.length ∧
      decode chip data (declaredLength data) = .ok table := by
  unfold ofBytes?
  cases headerChip? data with
  | none => simp
  | some chip =>
    simp only
    split
    · cases hdecode : decode chip data (declaredLength data) <;> simp_all
    · simp_all

section Decode

variable {chip : Chip} {length : Nat}

theorem decode_eq_ok_iff : decode chip data length = .ok table ↔
    ∃ writes, decodeRecords (data.drop (recordStart length)) (length - recordStart length)
        (recordStart length) = .ok writes ∧
      table = ⟨chip, length, checksumHolds data length, crcHolds data length, writes⟩ := by
  simp only [decode, bind, Except.bind, pure, Except.pure]
  cases decodeRecords (data.drop (recordStart length)) (length - recordStart length)
    (recordStart length) <;> simp [eq_comm]

theorem decode_eq_error_iff {fault : ContainerFault} : decode chip data length = .error fault ↔
    decodeRecords (data.drop (recordStart length)) (length - recordStart length)
      (recordStart length) = .error fault := by
  simp only [decode, bind, Except.bind, pure, Except.pure]
  cases decodeRecords (data.drop (recordStart length)) (length - recordStart length)
    (recordStart length) <;> simp

end Decode

theorem ofBytes?_eq_error_iff {error : Error} : ofBytes? data = .error error ↔
    ∃ chip fault, headerChip? data = some chip ∧ 16 ≤ declaredLength data ∧
      declaredLength data + 5 ≤ data.length ∧
      decode chip data (declaredLength data) = .error fault ∧ .container chip fault = error := by
  unfold ofBytes?
  cases headerChip? data with
  | none => simp
  | some chip =>
    simp only
    split
    · cases hdecode : decode chip data (declaredLength data) <;> simp_all
    · simp_all

theorem strides_of_ofBytes? (h : ofBytes? data = .ok (some table)) :
    table.headerLength = declaredLength data ∧ 16 ≤ table.headerLength ∧
      table.headerLength + 5 ≤ data.length ∧
      ∃ records, Strides data table.headerLength (recordStart table.headerLength) records ∧
        records.map Prod.snd = table.writes := by
  obtain ⟨chip, -, hmin, hlength, hdecode⟩ := ofBytes?_eq_ok_some_iff.1 h
  obtain ⟨writes, hwrites, rfl⟩ := decode_eq_ok_iff.1 hdecode
  have hwhole : declaredLength data ≤ data.length := by omega
  exact ⟨rfl, hmin, hlength, exists_strides_of_decodeRecords hwhole hwrites⟩

theorem ofBytes?_ne_truncated (data : Bytes) (chip : Chip) (offset : Nat) :
    ofBytes? data ≠ .error (.container chip (.truncatedValue offset)) := by
  intro h
  obtain ⟨chip', fault, -, -, hlength, hdecode, herror⟩ := ofBytes?_eq_error_iff.1 h
  obtain ⟨rfl, rfl⟩ := Error.container.inj herror
  have hroom : declaredLength data + 4 ≤ data.length := by omega
  exact decodeRecords_ne_truncated _ hroom offset (decode_eq_error_iff.1 hdecode)

/-- Bytes of two tables' headers that are the same make their records the same. -/
theorem writes_eq_of_take_eq {records : List (Nat × DeviceWrite)}
    (h : ofBytes? data = .ok (some table)) (h' : ofBytes? data' = .ok (some table'))
    (hstrides : Strides data table.headerLength (recordStart table.headerLength) records)
    (hwrites : records.map Prod.snd = table.writes)
    (hhead : data'.take table.headerLength = data.take table.headerLength)
    (hrecords : ∀ p w, (p, w) ∈ records →
      data'.take (p + 4 + w.size.toNat) = data.take (p + 4 + w.size.toNat)) :
    table'.writes = table.writes := by
  obtain ⟨hdeclared, hmin, -, -⟩ := strides_of_ofBytes? h
  obtain ⟨hdeclared', -, hlength', records', hstrides', hwrites'⟩ := strides_of_ofBytes? h'
  -- The length itself is among the bytes that are the same.
  have hsame : table'.headerLength = table.headerLength := by
    rw [hdeclared, hdeclared', declaredLength_congr hhead (by omega)]
  rw [hsame] at hstrides' hlength'
  have hdecoded := decodeRecords_of_strides (by omega) hstrides'
  rw [decodeRecords_of_strides (by omega) (hstrides.congr hhead hrecords)] at hdecoded
  rw [← hwrites, ← hwrites', Except.ok.inj hdecoded]

/-! ## What a table depends on -/

/-- A table that comes from its header alone: every byte of the header that is not zero lies in
the stride of a record, every record lies within the header, and any buffer with the header and a
table has the same writes. -/
structure FromHeader (data : Bytes) (table : RecordTable) : Prop where
  marked : ∀ i, recordStart table.headerLength ≤ i → i < table.headerLength →
    data[i]? ≠ some 0 → data[i - i % 8]? = some recordMarker
  within : ∃ records : List (Nat × DeviceWrite), records.map Prod.snd = table.writes ∧
    (records.Pairwise fun a b => a.1 < b.1) ∧
    (∀ p w, (p, w) ∈ records ↔ recordStart table.headerLength ≤ p ∧ p % 8 = 0 ∧
      p + 4 ≤ table.headerLength ∧ RecordAt data p w) ∧
    ∀ p w, (p, w) ∈ records → p + 4 + w.size.toNat ≤ table.headerLength
  decided : ∀ data' table', ofBytes? data' = .ok (some table') →
    data'.take table.headerLength = data.take table.headerLength → table'.writes = table.writes

/-- A header whose last stride is looked at in full: when it is too short for a record, it holds
zeros or the mark of one, and a record in it is not cut off. -/
structure EndsWhole (data : Bytes) (length : Nat) : Prop where
  rest : length % 8 < 4 → ∀ i, length - length % 8 ≤ i → i < length → data[i]? ≠ some 0 →
    data[length - length % 8]? = some recordMarker
  record : 4 ≤ length % 8 → ∀ w, RecordAt data (length - length % 8) w →
    w.size.toNat ≤ length % 8 - 4

theorem endsWhole_of_mod_eq_zero (data : Bytes) {length : Nat} (h : length % 8 = 0) :
    EndsWhole data length where
  rest _ i hle hlt := by omega
  record hrest := by omega

section Records

variable {length : Nat} {records : List (Nat × DeviceWrite)}

theorem mem_records_iff (h : Strides data length (recordStart length) records) (p : Nat)
    (w : DeviceWrite) : (p, w) ∈ records ↔
      recordStart length ≤ p ∧ p % 8 = 0 ∧ p + 4 ≤ length ∧ RecordAt data p w := by
  have hstart := recordStart_cases length
  rw [h.mem_iff]
  constructor
  · rintro ⟨hle, hstride, hrest⟩
    exact ⟨hle, by omega, hrest⟩
  · rintro ⟨hle, hstride, hrest⟩
    exact ⟨hle, by omega, hrest⟩

/-- Only the record of a stride that the header cuts short can end after the header. -/
theorem EndsWhole.record_le (hwhole : EndsWhole data length)
    (h : Strides data length (recordStart length) records) {p : Nat} {w : DeviceWrite}
    (hmem : (p, w) ∈ records) : p + 4 + w.size.toNat ≤ length := by
  obtain ⟨-, hstride, hroom, hrecord⟩ := (mem_records_iff h p w).1 hmem
  have hsize := width_le_four hrecord.isWidth
  by_cases hcut : p + 8 ≤ length
  · omega
  · have hlast : p = length - length % 8 := by omega
    have hfits := hwhole.record (by omega) w (hlast ▸ hrecord)
    omega

theorem EndsWhole.marker_of_ne_zero (hwhole : EndsWhole data length)
    (h : Strides data length (recordStart length) records) {i : Nat}
    (hle : recordStart length ≤ i) (hi : i < length) (hne : data[i]? ≠ some 0) :
    data[i - i % 8]? = some recordMarker := by
  have hstart := recordStart_cases length
  have hstride : (i - recordStart length) % 8 = i % 8 := by omega
  rcases h.marker_of_ne_zero hle hi hne with hmarker | hshort
  · rwa [hstride] at hmarker
  · rw [hstride] at hshort
    rw [show i - i % 8 = length - length % 8 by omega]
    exact hwhole.rest (by omega) i (by omega) hi hne

end Records

theorem EndsWhole.fromHeader (h : ofBytes? data = .ok (some table))
    (hwhole : EndsWhole data table.headerLength) : FromHeader data table := by
  obtain ⟨-, -, -, records, hstrides, hwrites⟩ := strides_of_ofBytes? h
  refine ⟨fun i => hwhole.marker_of_ne_zero hstrides,
    ⟨records, hwrites, hstrides.pairwise, mem_records_iff hstrides,
      fun p w => hwhole.record_le hstrides⟩, fun data' table' h' hhead => ?_⟩
  exact writes_eq_of_take_eq h h' hstrides hwrites hhead fun p w hmem =>
    take_congr hhead (hwhole.record_le hstrides hmem)

theorem FromHeader.endsWhole (hmin : 16 ≤ table.headerLength) (hfrom : FromHeader data table) :
    EndsWhole data table.headerLength := by
  have hstart := recordStart_cases table.headerLength
  constructor
  · intro hrest i hle hi hne
    have hmarker := hfrom.marked i (by omega) hi hne
    rwa [show i - i % 8 = table.headerLength - table.headerLength % 8 by omega] at hmarker
  · intro hrest w hrecord
    obtain ⟨records, -, -, hmem, hfits⟩ := hfrom.within
    have := hfits _ w ((hmem _ w).2 ⟨by omega, by omega, by omega, hrecord⟩)
    omega

/-- The exact condition for a table to come from its header alone. In any case the four bytes after
the header decide with it, so that a value is never reported as cut off. -/
theorem fromHeader_iff (data : Bytes) :
    (∀ chip offset, ofBytes? data ≠ .error (.container chip (.truncatedValue offset))) ∧
    ∀ table, ofBytes? data = .ok (some table) →
      (FromHeader data table ↔ EndsWhole data table.headerLength) ∧
      (table.headerLength % 8 = 0 → FromHeader data table) ∧
      ∀ data' table', ofBytes? data' = .ok (some table') →
        data'.take (table.headerLength + 4) = data.take (table.headerLength + 4) →
        table'.writes = table.writes := by
  refine ⟨ofBytes?_ne_truncated data, fun table h => ?_⟩
  obtain ⟨-, hmin, -, records, hstrides, hwrites⟩ := strides_of_ofBytes? h
  refine ⟨⟨fun hfrom => hfrom.endsWhole hmin, fun hwhole => hwhole.fromHeader h⟩,
    fun hstrides => (endsWhole_of_mod_eq_zero data hstrides).fromHeader h,
    fun data' table' h' hsame => ?_⟩
  refine writes_eq_of_take_eq h h' hstrides hwrites (take_congr hsame (Nat.le_add_right ..))
    fun p w hmem => take_congr hsame ?_
  obtain ⟨-, -, hroom, hrecord⟩ := (mem_records_iff hstrides p w).1 hmem
  have hsize := width_le_four hrecord.isWidth
  omega

/-- The last stride is cut after six bytes, of which its record takes all. -/
theorem fromHeader_of_cut_stride :
    let data : Bytes := headerLead .prom 22 ++ [0xCC, 0x12, 0x00, 0x04, 0x55, 0x01] ++
      [0, 0, 0, 0, 0]
    let table : RecordTable := ⟨.prom, 22, false, false, [⟨1, 0x400, 0x155, 2⟩]⟩
    ofBytes? data = .ok (some table) ∧ EndsWhole data 22 ∧ FromHeader data table ∧
      (data ++ [1]).take 26 = data.take 26 ∧
      ∃ table', ofBytes? (data ++ [1]) = .ok (some table') ∧ table'.writes = table.writes := by
  intro data table
  have htable : ofBytes? data = .ok (some table) := by
    unfold data table
    decide +kernel
  have hlonger : ofBytes? (data ++ [1]) = .ok (some table) := by
    unfold data table
    decide +kernel
  have hwhole : EndsWhole data 22 := by
    refine ⟨fun hrest => absurd hrest (by decide), fun _ w hrecord => ?_⟩
    obtain ⟨control, hcontrol, -, hsize⟩ := hrecord.control
    obtain rfl := Option.some.inj hcontrol
    rw [hsize]
    decide
  have hsame : (data ++ [1]).take 26 = data.take 26 := rfl
  obtain ⟨hiff, -, hdecided⟩ := (fromHeader_iff data).2 table htable
  exact ⟨htable, hwhole, hiff.2 hwhole, hsame, table, hlonger, hdecided _ _ hlonger hsame⟩

/-- Two buffers with one header, of twenty bytes, that ends inside a record: its value is taken
from what follows. The last byte of a header of seventeen bytes is not looked at. -/
theorem table_reads_past_header :
    let data : Bytes := headerLead .prom 20 ++ [0xCC, 0x14, 0x00, 0x04]
    let table (value : UInt32) (sealed : Bool) : RecordTable :=
      ⟨.prom, 20, sealed, sealed, [⟨1, 0x400, value, 4⟩]⟩
    let rest : Bytes := headerLead .prom 17 ++ [1, 0xA1, 0xB5, 0x6C, 0xA4, 0x2E]
    ofBytes? (data ++ [0, 0, 0, 0, 0]) = .ok (some (table 0 false)) ∧
    ofBytes? (data ++ [0x87, 0xE5, 0x82, 0x1B, 0xC6]) = .ok (some (table 0x1B82E587 true)) ∧
    ¬FromHeader (data ++ [0, 0, 0, 0, 0]) (table 0 false) ∧
    ofBytes? rest = .ok (some ⟨.prom, 17, true, true, []⟩) ∧
    ¬FromHeader rest ⟨.prom, 17, true, true, []⟩ := by
  intro data table rest
  have hzero : ofBytes? (data ++ [0, 0, 0, 0, 0]) = .ok (some (table 0 false)) := by
    unfold data table
    decide +kernel
  have hsealed : ofBytes? (data ++ [0x87, 0xE5, 0x82, 0x1B, 0xC6]) =
      .ok (some (table 0x1B82E587 true)) := by
    unfold data table
    decide +kernel
  have hrest : ofBytes? rest = .ok (some ⟨.prom, 17, true, true, []⟩) := by
    unfold rest
    decide +kernel
  refine ⟨hzero, hsealed, fun hfrom => ?_, hrest, fun hfrom => ?_⟩
  · have hwrites := hfrom.decided _ _ hsealed rfl
    exact absurd hwrites (by decide)
  · have hmarker := hfrom.marked 16 (by decide) (by decide) (by decide)
    exact absurd hmarker (by decide)

end RecordTable

end RegisterImage
