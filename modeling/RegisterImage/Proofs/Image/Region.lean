import RegisterImage.Proofs.Image.FromHeader
import RegisterImage.Proofs.Image.Header

/-!
# Headers of whole strides

A header whose length is a multiple of eight is cut into whole strides. There is a table when each
of them holds zeros or begins like a record, and the first that does neither is the one that is
reported. A table that was read can be written again.

## Main definitions

* `strideOffsets` — where the strides of a header begin.
* `SoundStride`, `StrideFault` — the strides that are read, and what is wrong with the others.
* `RecordAt.encodable` — what is read can be written.
* `RecordTable.ofBytes?_of_whole_strides` — when there is a table, and which error there is
  otherwise.
-/

namespace RegisterImage

/-! ## What a stride may hold -/

/-- Where the strides of a header begin whose length is a multiple of eight. -/
def strideOffsets (length : Nat) : List Nat :=
  List.range' (recordStart length) ((length - recordStart length) / recordLength) recordLength

/-- A stride of zeros, or one that begins with the mark and a size of a record. -/
def SoundStride (data : Bytes) (length offset : Nat) : Prop :=
  BlankStride data length offset ∨ data[offset]? = some recordMarker ∧
    ∃ control, data[offset + 1]? = some control ∧ IsWidth (control &&& 0xF)

/-- What is wrong with a stride. -/
inductive StrideFault (data : Bytes) (length offset : Nat) : ContainerFault → Prop where
  | marker : data[offset]? ≠ some recordMarker → ¬BlankStride data length offset →
      StrideFault data length offset (.invalidMarker offset)
  | opcode {control : UInt8} : data[offset]? = some recordMarker →
      data[offset + 1]? = some control → ¬IsWidth (control &&& 0xF) →
      StrideFault data length offset (.invalidOpcode offset (control &&& 0xF))

theorem RecordAt.encodable {data : Bytes} {offset : Nat} {w : DeviceWrite}
    (h : RecordAt data offset w) : w.Encodable where
  isWidth := h.isWidth
  segment_le := by
    obtain ⟨control, -, hsegment, -⟩ := h.control
    have hlt := control.toNat_lt
    rw [hsegment, UInt8.le_iff_toNat_le, UInt8.toNat_shiftRight, Nat.shiftRight_eq_div_pow]
    simp
    omega
  value_le := le_sizeLimit_of_readSized? h.isWidth h.value

section Stride

variable {data : Bytes} {length offset : Nat}

theorem exists_recordAt (hroom : offset + recordLength ≤ data.length) {control : UInt8}
    (hmarker : data[offset]? = some recordMarker) (hcontrol : data[offset + 1]? = some control)
    (hwidth : IsWidth (control &&& 0xF)) : ∃ w, RecordAt data offset w := by
  rw [recordLength] at hroom
  have hfour := width_le_four hwidth
  have haddress := readLe16?_of_le (show 2 ≤ (data.drop (offset + 2)).length by
    rw [List.length_drop]
    omega)
  have hvalue : readSized? (control &&& 0xF).toNat (data.drop (offset + 4)) = some _ :=
    if_pos (by rw [List.length_drop]; omega)
  exact ⟨⟨control >>> 4, _, _, control &&& 0xF⟩, hmarker, ⟨control, hcontrol, rfl, rfl⟩,
    hwidth, haddress, hvalue⟩

theorem exists_strideFault (hroom : offset + 4 ≤ length) (hlength : length + 4 ≤ data.length)
    (h : ¬SoundStride data length offset) : ∃ fault, StrideFault data length offset fault ∧
      decodeRecord (data.drop offset) (length - offset) offset = .error fault := by
  generalize houtcome : decodeRecord _ _ _ = outcome
  have := houtcome ▸ strideOutcome_decodeRecord hroom (Nat.le_of_add_right_le hlength)
  cases this with
  | blank hblank => exact absurd (.inl hblank) h
  | record hrecord =>
    obtain ⟨control, hcontrol, -, hsize⟩ := hrecord.control
    exact absurd (.inr ⟨hrecord.marker, control, hcontrol, hsize ▸ hrecord.isWidth⟩) h
  | marker hmarker hblank => exact ⟨_, .marker hmarker hblank, rfl⟩
  | opcode hmarker hcontrol hwidth => exact ⟨_, .opcode hmarker hcontrol hwidth, rfl⟩
  | truncated hmarker hcontrol hwidth =>
    exact absurd (.inr ⟨hmarker, _, hcontrol, hwidth⟩) h

end Stride

/-! ## All strides -/

section Region

variable {data : Bytes} {length offset : Nat}

/-- By induction on the number of strides: each is blank and leaves no record, or holds one. -/
theorem exists_strides_of_sound {count : Nat} (hend : offset + recordLength * count = length)
    (hlength : length ≤ data.length)
    (h : ∀ p ∈ List.range' offset count recordLength, SoundStride data length p) :
    ∃ records, Strides data length offset records ∧
      List.Forall₂ (RecordAt data)
        ((List.range' offset count recordLength).filter fun p => data[p]? = some recordMarker)
        (records.map Prod.snd) := by
  induction count generalizing offset with
  | zero => exact ⟨[], .done (by omega), .nil⟩
  | succ count ih =>
    rw [List.range'_succ] at h ⊢
    obtain ⟨hfirst, hmore⟩ := List.forall_mem_cons.1 h
    rw [Nat.mul_succ, Nat.add_comm _ recordLength, ← Nat.add_assoc] at hend
    obtain ⟨records, hrecords, hall⟩ := ih hend hmore
    have hstride : offset + recordLength ≤ length := by omega
    have hroom : offset + 4 ≤ length := by
      rw [recordLength] at hstride
      omega
    rcases hfirst with hblank | ⟨hmarker, control, hcontrol, hwidth⟩
    · have hne := hblank.marker_ne (by omega)
      refine ⟨records, .blank hroom hblank hrecords, ?_⟩
      rwa [List.filter_cons_of_neg (by simpa using hne)]
    · obtain ⟨w, hrecord⟩ := exists_recordAt (hstride.trans hlength) hmarker hcontrol hwidth
      refine ⟨(offset, w) :: records, .record hroom hrecord hrecords, ?_⟩
      rw [List.filter_cons_of_pos (by simpa using hmarker)]
      exact .cons hrecord hall

/-- By induction on the strides before the first that is not sound, which are decoded. -/
theorem decodeRecords_of_unsound {count : Nat} (hend : offset + recordLength * count = length)
    (hlength : length + 4 ≤ data.length) {p : Nat}
    (hp : p ∈ List.range' offset count recordLength) (hunsound : ¬SoundStride data length p)
    (hfirst : ∀ q ∈ List.range' offset count recordLength, q < p → SoundStride data length q) :
    ∃ fault, StrideFault data length p fault ∧
      decodeRecords (data.drop offset) (length - offset) offset = .error fault := by
  induction count generalizing offset with
  | zero => exact absurd hp List.not_mem_nil
  | succ count ih =>
    rw [List.range'_succ] at hp hfirst
    obtain ⟨hself, hmore⟩ := List.forall_mem_cons.1 hfirst
    rw [Nat.mul_succ, Nat.add_comm _ recordLength, ← Nat.add_assoc] at hend
    have hroom : offset + 4 ≤ length := by
      rw [recordLength] at hend
      omega
    rcases List.mem_cons.1 hp with rfl | hp
    · obtain ⟨fault, hfault, hdecode⟩ := exists_strideFault hroom hlength hunsound
      exact ⟨fault, hfault, (decodeRecords_eq_error_iff (by omega)).2 (.inl hdecode)⟩
    · obtain ⟨fault, hfault, hdecode⟩ := ih hend hp hmore
      have hlt : offset < p := by
        obtain ⟨i, -, rfl⟩ := List.mem_range'.1 hp
        rw [recordLength]
        omega
      refine ⟨fault, hfault, (decodeRecords_eq_error_iff (by omega)).2 (.inr ?_)⟩
      rw [List.drop_drop, Nat.sub_sub]
      rcases hself hlt with hblank | ⟨hmarker, control, hcontrol, hwidth⟩
      · exact ⟨none, decodeRecord_of_blank hroom (by omega) hblank, hdecode⟩
      · obtain ⟨w, hrecord⟩ := exists_recordAt (by omega) hmarker hcontrol hwidth
        exact ⟨some w, decodeRecord_of_record hroom (by omega) hrecord, hdecode⟩

theorem Strides.encodable {records : List (Nat × DeviceWrite)}
    (h : Strides data length offset records) : ∀ w ∈ records.map Prod.snd, w.Encodable := by
  intro w hw
  obtain ⟨⟨p, w⟩, hrecord, rfl⟩ := List.mem_map.1 hw
  obtain ⟨-, -, -, hat⟩ := (h.mem_iff p w).1 hrecord
  exact hat.encodable

/-- Where some stride is not sound, there is a first one. -/
theorem exists_first_unsound {offsets : List Nat}
    (h : ∃ p ∈ offsets, ¬SoundStride data length p) :
    ∃ p ∈ offsets, ¬SoundStride data length p ∧
      ∀ q ∈ offsets, q < p → SoundStride data length q := by
  classical
  obtain ⟨hp, hunsound⟩ := Nat.find_spec h
  refine ⟨Nat.find h, hp, hunsound, fun q hq hlt => ?_⟩
  by_contra hnot
  exact Nat.find_min h hlt ⟨hq, hnot⟩

end Region

/-! ## Writing a table again -/

namespace RecordTable

variable {data : Bytes} {chip : Chip} {length : Nat}

theorem strideOffsets_end (hmin : 16 ≤ length) (hwhole : length % 8 = 0) :
    recordStart length + recordLength * ((length - recordStart length) / recordLength) =
      length := by
  have hstart := recordStart_cases length
  rw [recordLength]
  omega

section Declared

variable (hchip : headerChip? data = some chip) (hdeclared : declaredLength data = length)
  (hmin : 16 ≤ length) (hroom : length + 5 ≤ data.length)

include hchip hdeclared hmin hroom

theorem ofBytes?_of_strides {records : List (Nat × DeviceWrite)}
    (h : Strides data length (recordStart length) records) :
    ofBytes? data = .ok (some ⟨chip, length, checksumHolds data length, crcHolds data length,
      records.map Prod.snd⟩) := by
  subst hdeclared
  have hrecords := decodeRecords_of_strides (by omega) h
  exact ofBytes?_eq_ok_some_iff.2
    ⟨chip, hchip, hmin, hroom, decode_eq_ok_iff.2 ⟨_, hrecords, rfl⟩⟩

theorem ofBytes?_of_decodeRecords_error {fault : ContainerFault}
    (h : decodeRecords (data.drop (recordStart length)) (length - recordStart length)
      (recordStart length) = .error fault) :
    ofBytes? data = .error (.container chip fault) := by
  subst hdeclared
  exact ofBytes?_eq_error_iff.2 ⟨chip, fault, hchip, hmin, hroom, decode_eq_error_iff.2 h, rfl⟩

theorem ofBytes?_of_first_unsound (hwhole : length % 8 = 0) {p : Nat}
    (hp : p ∈ strideOffsets length) (hunsound : ¬SoundStride data length p)
    (hfirst : ∀ q ∈ strideOffsets length, q < p → SoundStride data length q) :
    ∃ fault, StrideFault data length p fault ∧
      ofBytes? data = .error (.container chip fault) := by
  obtain ⟨fault, hfault, hdecode⟩ := decodeRecords_of_unsound (strideOffsets_end hmin hwhole)
    (by omega) hp hunsound hfirst
  exact ⟨fault, hfault, ofBytes?_of_decodeRecords_error hchip hdeclared hmin hroom hdecode⟩

end Declared

/-- The writes of a table fit into a header again: each takes eight bytes of the old one. -/
theorem buildHeader_of_table (hlength : length < 0x10000) (hwhole : length % 8 = 0) (chip : Chip)
    {info : Info} (hinfo : info.Proper) {plan : Plan} (hplan : plan.Encodable)
    (hcount : plan.writes.length ≤ (strideOffsets length).length) :
    ∃ header, buildHeader chip info plan = .ok header ∧
      ofBytes? header = .ok (some ⟨chip, header.length - 5, true, true, plan.writes⟩) := by
  have hfits : leadLength + (headerBody info plan).length < 0x10000 := by
    have hle := length_headerBody_le hinfo fun w hw => (hplan.writes w hw).isWidth
    rw [strideOffsets, List.length_range', recordLength, recordStart] at hcount
    split at hcount <;> omega
  obtain ⟨header, hheader⟩ := buildHeader_of_fits chip hfits
  have htable := ofBytes?_of_buildHeader hinfo hplan hheader []
  rw [List.append_nil] at htable
  exact ⟨header, hheader, htable⟩

/-- The first stride that is not sound is the one that is reported. When all are sound, there is
one write for each record, in order, and every plan of these writes alone has a header that is
read back as the same ones. -/
theorem ofBytes?_of_whole_strides (hchip : headerChip? data = some chip)
    (hdeclared : declaredLength data = length) (hmin : 16 ≤ length)
    (hroom : length + 5 ≤ data.length) (hwhole : length % 8 = 0) :
    ((∃ error, ofBytes? data = .error error) ↔
      ∃ p ∈ strideOffsets length, ¬SoundStride data length p) ∧
    (∀ p ∈ strideOffsets length, ¬SoundStride data length p →
      (∀ q ∈ strideOffsets length, q < p → SoundStride data length q) →
      ∃ fault, StrideFault data length p fault ∧
        ofBytes? data = .error (.container chip fault)) ∧
    ((∀ p ∈ strideOffsets length, SoundStride data length p) →
      ∃ table, ofBytes? data = .ok (some table) ∧ table.chip = chip ∧
        table.headerLength = length ∧
        List.Forall₂ (RecordAt data)
          ((strideOffsets length).filter fun p => data[p]? = some recordMarker) table.writes ∧
        (∀ w ∈ table.writes, w.Encodable) ∧
        ∀ (chip' : Chip) (info : Info) (plan : Plan), info.Proper →
          (∀ e ∈ plan.entries, e.sequence = []) →
          plan.opening.toList ++ plan.entries.map PlanEntry.write ++ plan.closing.toList =
            table.writes →
          ∃ header, buildHeader chip' info plan = .ok header ∧
            ofBytes? header =
              .ok (some ⟨chip', header.length - 5, true, true, table.writes⟩)) := by
  have hend := strideOffsets_end hmin hwhole
  have hlength : length ≤ data.length := by omega
  have hunsound {p : Nat} := ofBytes?_of_first_unsound (p := p) hchip hdeclared hmin hroom hwhole
  refine ⟨⟨?_, ?_⟩, fun p => hunsound, fun hsound => ?_⟩
  · rintro ⟨error, herror⟩
    by_contra hall
    push Not at hall
    obtain ⟨records, hrecords, -⟩ := exists_strides_of_sound hend hlength hall
    rw [ofBytes?_of_strides hchip hdeclared hmin hroom hrecords] at herror
    cases herror
  · intro hexists
    obtain ⟨p, hp, hnot, hfirst⟩ := exists_first_unsound hexists
    obtain ⟨fault, -, herror⟩ := hunsound hp hnot hfirst
    exact ⟨_, herror⟩
  · obtain ⟨records, hrecords, hall⟩ := exists_strides_of_sound hend hlength hsound
    refine ⟨_, ofBytes?_of_strides hchip hdeclared hmin hroom hrecords, rfl, rfl, hall,
      hrecords.encodable, fun chip' info plan hinfo hplain hplan => ?_⟩
    have hwrites := (Plan.writes_of_unsequenced hplain).trans hplan
    have hfits : length < 0x10000 := hdeclared ▸ UInt16.toNat_lt _
    have hcount : plan.writes.length ≤ (strideOffsets length).length := by
      rw [hwrites, ← hall.length_eq]
      exact List.length_filter_le ..
    rw [← hwrites]
    exact buildHeader_of_table hfits hwhole chip' hinfo
      (Plan.encodable_of_unsequenced hplain (hwrites ▸ hrecords.encodable)) hcount

/-- A gap of zeros between two records, the first with a byte that is not looked at; and a stride
of a wrong size before one without a mark. -/
theorem ofBytes?_of_gap_or_wrong_size :
    let sound : Bytes := headerLead .prom 40 ++ [0xCC, 0x12, 0x00, 0x04, 0x55, 0x01, 0xAA, 0] ++
      [0, 0, 0, 0, 0, 0, 0, 0] ++ [0xCC, 0xF1, 0x10, 0x00, 0x07, 0, 0, 0] ++ [0, 0, 0, 0, 0]
    let broken : Bytes := headerLead .prom 40 ++ [0xCC, 0x12, 0x00, 0x04, 0x55, 0x01, 0, 0] ++
      [0xCC, 0x13, 0, 0, 0, 0, 0, 0] ++ [1, 0, 0, 0, 0, 0, 0, 0] ++ [0, 0, 0, 0, 0]
    let plan : Plan := ⟨[⟨"PHY_MODE", ⟨1, 0x400, 0x155, 2⟩, []⟩], none, some ⟨15, 0x10, 7, 1⟩⟩
    (ofBytes? sound = .ok (some ⟨.prom, 40, false, false, plan.writes⟩) ∧
      ∃ header, buildHeader .prom21 .omitted plan = .ok header ∧
        ofBytes? header =
          .ok (some ⟨.prom21, header.length - 5, true, true, plan.writes⟩)) ∧
    ∃ fault, StrideFault broken 40 24 fault ∧
      ofBytes? broken = .error (.container .prom fault) := by
  intro sound broken plan
  have hoffsets : strideOffsets 40 = [16, 24, 32] := rfl
  constructor
  · have hchip : headerChip? sound = some .prom := by decide +kernel
    have hdeclared : declaredLength sound = 40 := by decide +kernel
    obtain ⟨-, -, htable⟩ :=
      ofBytes?_of_whole_strides hchip hdeclared (by decide) (by decide) (by decide)
    have hsound : ∀ p ∈ strideOffsets 40, SoundStride sound 40 p := by
      rw [hoffsets]
      simp only [List.forall_mem_cons, List.not_mem_nil, false_implies, implies_true, and_true]
      refine ⟨.inr ⟨rfl, 0x12, rfl, by decide⟩, .inl fun i hle hlt _ => ?_,
        .inr ⟨rfl, 0xF1, rfl, by decide⟩⟩
      rw [recordLength] at hlt
      interval_cases i <;> rfl
    obtain ⟨table, hof, -, -, -, -, hagain⟩ := htable hsound
    have hread : ofBytes? sound = .ok (some ⟨.prom, 40, false, false, plan.writes⟩) := by
      unfold sound plan
      decide +kernel
    obtain rfl := Option.some.inj (Except.ok.inj (hof.symm.trans hread))
    exact ⟨hread, hagain .prom21 .omitted plan (.inl rfl) (by decide) rfl⟩
  · have hchip : headerChip? broken = some .prom := by decide +kernel
    have hdeclared : declaredLength broken = 40 := by decide +kernel
    obtain ⟨-, hfirst, -⟩ :=
      ofBytes?_of_whole_strides hchip hdeclared (by decide) (by decide) (by decide)
    refine hfirst 24 (by decide) ?_ fun q hq hlt => ?_
    · rintro (hblank | ⟨-, control, hcontrol, hwidth⟩)
      · exact absurd (hblank 24 (by decide) (by decide) (by decide)) (by decide)
      · obtain rfl := Option.some.inj hcontrol
        exact absurd hwidth (by decide)
    · rw [hoffsets] at hq
      obtain rfl : q = 16 := by
        simp at hq
        omega
      exact .inr ⟨rfl, 0x12, rfl, by decide⟩

end RecordTable

end RegisterImage
