import Mathlib
import RegisterImage.Image.Records
import RegisterImage.Proofs.Image.Words

/-!
# Strides of a header

The records of a header are read in strides of eight bytes, each a record or zeros. The last
stride may be cut short by the end of the header: the value of a record is then read from what
follows the header, and fewer than four bytes are not looked at.

## Main definitions

* `RecordAt`, `BlankStride` — a record at a position of a buffer, and a stride of zeros.
* `Strides` — the records in the strides of a header, with their positions.
* `decodeRecords_eq_ok_iff` — the decoded writes are those of the strides.
* `Strides.mem_iff`, `Strides.congr` — which records these are, and what decides them.
-/

namespace RegisterImage

/-! ## One stride -/

structure RecordAt (data : Bytes) (offset : Nat) (w : DeviceWrite) : Prop where
  marker : data[offset]? = some recordMarker
  control : ∃ control, data[offset + 1]? = some control ∧
    w.segment = control >>> 4 ∧ w.size = control &&& 0xF
  isWidth : IsWidth w.size
  address : readLe16? (data.drop (offset + 2)) = some w.offset
  value : readSized? w.size.toNat (data.drop (offset + 4)) = some w.value

theorem width_le_four {size : UInt8} (h : IsWidth size) : size.toNat ≤ 4 := by
  rcases h with rfl | rfl | rfl <;> decide

/-- Zeros up to the end of the stride or of the header. -/
def BlankStride (data : Bytes) (length offset : Nat) : Prop :=
  ∀ i, offset ≤ i → i < offset + recordLength → i < length → data[i]? = some 0

theorem readLe16?_take (bs : Bytes) : readLe16? (bs.take 2) = readLe16? bs := by
  rcases bs with - | ⟨a, - | ⟨b, bs⟩⟩ <;> rfl

theorem readLe32?_take (bs : Bytes) : readLe32? (bs.take 4) = readLe32? bs := by
  rcases bs with - | ⟨a, - | ⟨b, - | ⟨c, - | ⟨d, bs⟩⟩⟩⟩ <;> rfl

theorem readSized?_take (size : Nat) (bs : Bytes) :
    readSized? size (bs.take size) = readSized? size bs := by
  simp [readSized?, List.take_take]

theorem take_take_self (bs : Bytes) (n : Nat) : (bs.take n).take n = bs.take n := by
  rw [List.take_take, Nat.min_self]

theorem take_congr {data data' : Bytes} {n m : Nat} (h : data'.take n = data.take n)
    (hle : m ≤ n) : data'.take m = data.take m := by
  have := congrArg (List.take m) h
  rwa [List.take_take, List.take_take, Nat.min_eq_left hle] at this

theorem take_drop_congr {data data' : Bytes} {n : Nat} (h : data'.take n = data.take n)
    {offset size : Nat} (hle : offset + size ≤ n) :
    (data'.drop offset).take size = (data.drop offset).take size := by
  rw [List.take_drop, List.take_drop, take_congr h hle]

theorem getElem?_congr {data data' : Bytes} {n : Nat} (h : data'.take n = data.take n) {i : Nat}
    (hi : i < n) : data'[i]? = data[i]? := by
  rw [← List.getElem?_take_of_lt hi, h, List.getElem?_take_of_lt hi]

section SameFront

variable {data data' : Bytes} {n : Nat} (h : data'.take n = data.take n)
include h

theorem readLe16?_congr {offset : Nat} (hle : offset + 2 ≤ n) :
    readLe16? (data'.drop offset) = readLe16? (data.drop offset) := by
  rw [← readLe16?_take, take_drop_congr h hle, readLe16?_take]

theorem readLe32?_congr {offset : Nat} (hle : offset + 4 ≤ n) :
    readLe32? (data'.drop offset) = readLe32? (data.drop offset) := by
  rw [← readLe32?_take, take_drop_congr h hle, readLe32?_take]

theorem headerChip?_congr (hle : 16 ≤ n) : headerChip? data' = headerChip? data := by
  simp only [headerChip?, take_drop_congr h (show 6 + 10 ≤ n from hle)]

theorem declaredLength_congr (hle : 6 ≤ n) : declaredLength data' = declaredLength data := by
  simp only [declaredLength, readLe16?_congr h (show 4 + 2 ≤ n from hle)]

theorem checksumHolds_congr {length : Nat} (hlt : length < n) :
    checksumHolds data' length = checksumHolds data length := by
  simp only [checksumHolds, List.head?_drop, getElem?_congr h hlt, take_congr h hlt.le]

theorem crcHolds_congr {length : Nat} (hle : length + 5 ≤ n) :
    crcHolds data' length = crcHolds data length := by
  simp only [crcHolds, readLe32?_congr h (show length + 1 + 4 ≤ n from hle),
    take_congr h (Nat.le_of_add_right_le hle)]

end SameFront

/-- A record is decided by its own bytes. -/
theorem RecordAt.congr {data data' : Bytes} {offset : Nat} {w : DeviceWrite}
    (h : RecordAt data offset w)
    (hsame : data'.take (offset + 4 + w.size.toNat) = data.take (offset + 4 + w.size.toNat)) :
    RecordAt data' offset w := by
  obtain ⟨control, hcontrol, hfields⟩ := h.control
  constructor
  · rw [getElem?_congr hsame (by omega), h.marker]
  · exact ⟨control, by rw [getElem?_congr hsame (by omega), hcontrol], hfields⟩
  · exact h.isWidth
  · rw [readLe16?_congr hsame (by omega), h.address]
  · rw [← readSized?_take, take_drop_congr hsame (Nat.le_refl _), readSized?_take, h.value]

/-- The bytes of a record determine its write. -/
theorem RecordAt.eq {data : Bytes} {offset : Nat} {w w' : DeviceWrite}
    (h : RecordAt data offset w) (h' : RecordAt data offset w') : w = w' := by
  obtain ⟨control, hcontrol, hsegment, hsize⟩ := h.control
  obtain ⟨control', hcontrol', hsegment', hsize'⟩ := h'.control
  obtain rfl := Option.some.inj (hcontrol.symm.trans hcontrol')
  have hsizes : w.size = w'.size := hsize.trans hsize'.symm
  have haddress : w.offset = w'.offset := Option.some.inj (h.address.symm.trans h'.address)
  have hvalue : w.value = w'.value := Option.some.inj (h.value.symm.trans (hsizes ▸ h'.value))
  cases w
  cases w'
  simp_all

theorem BlankStride.marker_ne {data : Bytes} {length offset : Nat}
    (h : BlankStride data length offset) (hlt : offset < length) :
    data[offset]? ≠ some recordMarker := by
  rw [h offset (Nat.le_refl _) (by simp [recordLength]) hlt]
  decide

/-! ## Decoding one stride -/

/-- What a stride may hold, and what the decoder makes of it. -/
inductive StrideOutcome (data : Bytes) (length offset : Nat) :
    Except ContainerFault (Option DeviceWrite) → Prop where
  | blank : BlankStride data length offset → StrideOutcome data length offset (.ok none)
  | record {w : DeviceWrite} : RecordAt data offset w →
      StrideOutcome data length offset (.ok (some w))
  | marker : data[offset]? ≠ some recordMarker → ¬BlankStride data length offset →
      StrideOutcome data length offset (.error (.invalidMarker offset))
  | opcode {control : UInt8} : data[offset]? = some recordMarker →
      data[offset + 1]? = some control → ¬IsWidth (control &&& 0xF) →
      StrideOutcome data length offset (.error (.invalidOpcode offset (control &&& 0xF)))
  | truncated {control : UInt8} : data[offset]? = some recordMarker →
      data[offset + 1]? = some control → IsWidth (control &&& 0xF) →
      data.length < offset + 4 + (control &&& 0xF).toNat →
      StrideOutcome data length offset (.error (.truncatedValue offset))

section Decode

variable {data : Bytes} {length offset : Nat}

theorem all_take_drop_iff (offset : Nat) (hlength : length ≤ data.length) :
    ((data.drop offset).take (min recordLength (length - offset))).all (· = 0) = true ↔
      BlankStride data length offset := by
  simp only [List.all_eq_true, decide_eq_true_eq, BlankStride]
  constructor
  · intro h i hle hlt hi
    have hmem : data[i] ∈ (data.drop offset).take (min recordLength (length - offset)) := by
      refine List.mem_iff_getElem.2 ⟨i - offset, ?_, ?_⟩
      · simp only [List.length_take, List.length_drop]
        omega
      · simp [Nat.add_sub_cancel' hle]
    rw [List.getElem?_eq_getElem (by omega), h _ hmem]
  · intro h b hb
    obtain ⟨k, hk, rfl⟩ := List.mem_iff_getElem.1 hb
    simp only [List.length_take, List.length_drop] at hk
    have hzero := h (offset + k) (by omega) (by omega) (by omega)
    rw [List.getElem?_eq_getElem (by omega)] at hzero
    simpa using hzero

theorem drop_eq_of_getElem? {a b : UInt8} (ha : data[offset]? = some a)
    (hb : data[offset + 1]? = some b) : data.drop offset = a :: b :: data.drop (offset + 2) := by
  obtain ⟨hlt, rfl⟩ := List.getElem?_eq_some_iff.1 ha
  obtain ⟨hlt', rfl⟩ := List.getElem?_eq_some_iff.1 hb
  rw [List.drop_eq_getElem_cons hlt, List.drop_eq_getElem_cons hlt']

/-- The decoder needs the two bytes that tell what a stride holds, and a record needs the two of
its address. -/
theorem strideOutcome_decodeRecord (hroom : offset + 4 ≤ length)
    (hlength : length ≤ data.length) :
    StrideOutcome data length offset
      (decodeRecord (data.drop offset) (length - offset) offset) := by
  have hmarker : data[offset]? = some data[offset] := List.getElem?_eq_getElem _
  have hcontrol : data[offset + 1]? = some data[offset + 1] := List.getElem?_eq_getElem _
  generalize data[offset] = marker at hmarker
  generalize data[offset + 1] = control at hcontrol
  have hdrop := drop_eq_of_getElem? hmarker hcontrol
  have hblank := all_take_drop_iff offset hlength
  rw [hdrop] at hblank ⊢
  unfold decodeRecord
  simp only [List.drop_drop]
  split
  · rename_i hne
    split
    · exact .blank (hblank.1 ‹_›)
    · refine .marker (fun h => hne ?_) fun h => absurd (hblank.2 h) ‹_›
      exact Option.some.inj (hmarker.symm.trans h)
  · rename_i heq
    obtain rfl := not_not.1 heq
    split
    · rename_i hwidth
      split
      · rename_i address value haddress hvalue
        exact .record ⟨hmarker, ⟨control, hcontrol, rfl, rfl⟩, hwidth, haddress, hvalue⟩
      · rename_i hnot
        -- The address is there, so that only the value can be missing.
        refine .truncated hmarker hcontrol hwidth ?_
        by_contra hlong
        have haddress := readLe16?_of_le (show 2 ≤ (data.drop (offset + 2)).length by
          rw [List.length_drop]
          omega)
        refine hnot _ _ haddress (if_pos ?_)
        rw [List.length_drop]
        omega
    · exact .opcode hmarker hcontrol ‹_›

theorem decodeRecord_of_blank (hroom : offset + 4 ≤ length) (hlength : length ≤ data.length)
    (h : BlankStride data length offset) :
    decodeRecord (data.drop offset) (length - offset) offset = .ok none := by
  have hne := h.marker_ne (by omega)
  generalize houtcome : decodeRecord _ _ _ = outcome
  have := houtcome ▸ strideOutcome_decodeRecord hroom hlength
  cases this with
  | blank => rfl
  | record hrecord => exact absurd hrecord.marker hne
  | marker _ hnot => exact absurd h hnot
  | opcode hmarker => exact absurd hmarker hne
  | truncated hmarker => exact absurd hmarker hne

theorem decodeRecord_of_record (hroom : offset + 4 ≤ length) (hlength : length ≤ data.length)
    {w : DeviceWrite} (h : RecordAt data offset w) :
    decodeRecord (data.drop offset) (length - offset) offset = .ok (some w) := by
  obtain ⟨control, hcontrol, -, hsize⟩ := h.control
  generalize houtcome : decodeRecord _ _ _ = outcome
  have := houtcome ▸ strideOutcome_decodeRecord hroom hlength
  cases this with
  | blank hblank => exact absurd h.marker (hblank.marker_ne (by omega))
  | record hrecord => rw [h.eq hrecord]
  | marker hne => exact absurd h.marker hne
  | opcode _ hcontrol' hnot =>
    obtain rfl := Option.some.inj (hcontrol.symm.trans hcontrol')
    exact absurd (hsize ▸ h.isWidth) hnot
  | truncated _ hcontrol' _ hshort =>
    obtain rfl := Option.some.inj (hcontrol.symm.trans hcontrol')
    have hvalue := h.value
    rw [readSized?, if_neg (by rw [List.length_drop, hsize]; omega)] at hvalue
    cases hvalue

end Decode

/-! ## All strides -/

/-- The records in the strides of a header from an offset on. -/
inductive Strides (data : Bytes) (length : Nat) : Nat → List (Nat × DeviceWrite) → Prop where
  | done {offset : Nat} : length < offset + 4 → Strides data length offset []
  | blank {offset : Nat} {records : List (Nat × DeviceWrite)} : offset + 4 ≤ length →
      BlankStride data length offset → Strides data length (offset + recordLength) records →
      Strides data length offset records
  | record {offset : Nat} {w : DeviceWrite} {records : List (Nat × DeviceWrite)} :
      offset + 4 ≤ length → RecordAt data offset w →
      Strides data length (offset + recordLength) records →
      Strides data length offset ((offset, w) :: records)

section All

variable {data : Bytes} {length offset : Nat}

/-- One stride of a successful run. -/
theorem decodeRecords_eq_ok_iff {bs : Bytes} {room : Nat} (hroom : 4 ≤ room)
    {writes : List DeviceWrite} : decodeRecords bs room offset = .ok writes ↔
      ∃ write? more, decodeRecord bs room offset = .ok write? ∧
        decodeRecords (bs.drop recordLength) (room - recordLength) (offset + recordLength) =
          .ok more ∧ write?.toList ++ more = writes := by
  rw [decodeRecords, if_pos hroom]
  simp only [bind, Except.bind, pure, Except.pure]
  cases decodeRecord bs room offset with
  | error => simp
  | ok write? =>
    cases decodeRecords (bs.drop recordLength) (room - recordLength) (offset + recordLength) with
    | error => simp
    | ok more => simp

/-- A run fails in its first stride, or after it. -/
theorem decodeRecords_eq_error_iff {bs : Bytes} {room : Nat} (hroom : 4 ≤ room)
    {fault : ContainerFault} : decodeRecords bs room offset = .error fault ↔
      decodeRecord bs room offset = .error fault ∨
        ∃ write?, decodeRecord bs room offset = .ok write? ∧
          decodeRecords (bs.drop recordLength) (room - recordLength) (offset + recordLength) =
            .error fault := by
  rw [decodeRecords, if_pos hroom]
  simp only [bind, Except.bind, pure, Except.pure]
  cases decodeRecord bs room offset with
  | error => simp
  | ok write? =>
    cases decodeRecords (bs.drop recordLength) (room - recordLength) (offset + recordLength) with
    | error => simp
    | ok more => simp

/-- By induction on the room, which every stride lessens. -/
theorem exists_strides_of_decodeRecords (hlength : length ≤ data.length)
    {writes : List DeviceWrite}
    (h : decodeRecords (data.drop offset) (length - offset) offset = .ok writes) :
    ∃ records, Strides data length offset records ∧ records.map Prod.snd = writes := by
  induction hn : length - offset using Nat.strong_induction_on generalizing offset writes with
  | _ room ih =>
  by_cases hroom : offset + 4 ≤ length
  · obtain ⟨write?, more, hfirst, hmore, rfl⟩ :=
      (decodeRecords_eq_ok_iff (by omega)).1 h
    rw [List.drop_drop, Nat.sub_sub] at hmore
    obtain ⟨records, hrecords, rfl⟩ := ih _ (by simp only [recordLength]; omega) hmore rfl
    have houtcome := hfirst ▸ strideOutcome_decodeRecord hroom hlength
    cases houtcome with
    | blank hblank => exact ⟨records, .blank hroom hblank hrecords, rfl⟩
    | record hrecord => exact ⟨_, .record hroom hrecord hrecords, rfl⟩
  · rw [decodeRecords, if_neg (by omega)] at h
    obtain rfl := Except.ok.inj h
    exact ⟨[], .done (by omega), rfl⟩

theorem decodeRecords_of_strides (hlength : length ≤ data.length)
    {records : List (Nat × DeviceWrite)} (h : Strides data length offset records) :
    decodeRecords (data.drop offset) (length - offset) offset =
      .ok (records.map Prod.snd) := by
  induction h with
  | done hshort =>
    rw [decodeRecords, if_neg (by omega)]
    rfl
  | blank hroom hblank _ ih =>
    refine (decodeRecords_eq_ok_iff (by omega)).2
      ⟨none, _, decodeRecord_of_blank hroom hlength hblank, ?_, rfl⟩
    rw [List.drop_drop, Nat.sub_sub, ih]
  | record hroom hrecord _ ih =>
    refine (decodeRecords_eq_ok_iff (by omega)).2
      ⟨some _, _, decodeRecord_of_record hroom hlength hrecord, ?_, rfl⟩
    rw [List.drop_drop, Nat.sub_sub, ih]

/-- The four bytes that follow a header are enough for every value. -/
theorem decodeRecords_ne_truncated (offset : Nat) (hlength : length + 4 ≤ data.length)
    (position : Nat) : decodeRecords (data.drop offset) (length - offset) offset ≠
      .error (.truncatedValue position) := by
  induction hn : length - offset using Nat.strong_induction_on generalizing offset with
  | _ room ih =>
  rw [← hn, decodeRecords]
  split
  · have hless : length - (offset + recordLength) < room := by
      simp only [recordLength]
      omega
    have hmore := ih _ hless (offset + recordLength) rfl
    have hroom : offset + 4 ≤ length := by omega
    have houtcome := strideOutcome_decodeRecord hroom (show length ≤ data.length by omega)
    rw [List.drop_drop, Nat.sub_sub]
    simp only [bind, Except.bind, pure, Except.pure]
    generalize decodeRecord _ _ _ = outcome at houtcome ⊢
    generalize decodeRecords _ _ _ = outcomes at hmore ⊢
    cases houtcome with
    | blank | record => cases outcomes <;> simp_all
    | marker | opcode => simp
    | truncated _ _ hwidth hshort =>
      have hfour := width_le_four hwidth
      omega
  · simp [pure, Except.pure]

end All

namespace Strides

variable {data data' : Bytes} {length offset : Nat} {records : List (Nat × DeviceWrite)}

/-- The records are those at the beginnings of strides. -/
theorem mem_iff (h : Strides data length offset records) (p : Nat) (w : DeviceWrite) :
    (p, w) ∈ records ↔
      offset ≤ p ∧ (p - offset) % 8 = 0 ∧ p + 4 ≤ length ∧ RecordAt data p w := by
  induction h with
  | done hshort =>
    refine ⟨fun hmem => absurd hmem List.not_mem_nil, ?_⟩
    rintro ⟨hle, -, hroom, -⟩
    omega
  | @blank offset records hroom hblank _ ih =>
    rw [ih, recordLength]
    constructor
    · rintro ⟨hle, hstride, hrest⟩
      exact ⟨by omega, by omega, hrest⟩
    · rintro ⟨hle, hstride, hroom', hrecord⟩
      have hne : p ≠ offset := by
        rintro rfl
        exact hblank.marker_ne (by omega) hrecord.marker
      exact ⟨by omega, by omega, hroom', hrecord⟩
  | @record offset w' records hroom hrecord _ ih =>
    rw [List.mem_cons, ih, recordLength]
    constructor
    · rintro (hself | ⟨hle, hstride, hrest⟩)
      · obtain ⟨rfl, rfl⟩ := Prod.mk.inj hself
        exact ⟨Nat.le_refl _, by simp, hroom, hrecord⟩
      · exact ⟨by omega, by omega, hrest⟩
    · rintro ⟨hle, hstride, hroom', hrecord'⟩
      by_cases hself : p = offset
      · subst hself
        exact .inl (by rw [hrecord.eq hrecord'])
      · exact .inr ⟨by omega, by omega, hroom', hrecord'⟩

theorem pairwise (h : Strides data length offset records) :
    records.Pairwise fun a b => a.1 < b.1 := by
  induction h with
  | done => exact .nil
  | blank _ _ _ ih => exact ih
  | record _ _ hrest ih =>
    refine List.pairwise_cons.2 ⟨fun a ha => ?_, ih⟩
    have hle := ((hrest.mem_iff a.1 a.2).1 ha).1
    simp only [recordLength] at hle
    omega

/-- A byte that is not zero lies in the stride of a record, or in a last one that is too short. -/
theorem marker_of_ne_zero (h : Strides data length offset records) {i : Nat} (hle : offset ≤ i)
    (hi : i < length) (hne : data[i]? ≠ some 0) :
    data[i - (i - offset) % 8]? = some recordMarker ∨ length < i - (i - offset) % 8 + 4 := by
  induction h with
  | done hshort =>
    right
    omega
  | @blank offset records hroom hblank _ ih =>
    rw [recordLength] at ih
    have hbeyond : offset + 8 ≤ i := by
      by_contra hlt
      exact hne (hblank i hle (by simp only [recordLength]; omega) hi)
    rw [show (i - offset) % 8 = (i - (offset + 8)) % 8 by omega]
    exact ih hbeyond
  | @record offset w records hroom hrecord _ ih =>
    rw [recordLength] at ih
    by_cases hbeyond : offset + 8 ≤ i
    · rw [show (i - offset) % 8 = (i - (offset + 8)) % 8 by omega]
      exact ih hbeyond
    · left
      rw [show i - (i - offset) % 8 = offset by omega]
      exact hrecord.marker

/-- The strides are decided by the header and by the bytes of its records. -/
theorem congr (h : Strides data length offset records)
    (hhead : data'.take length = data.take length)
    (hrecords : ∀ p w, (p, w) ∈ records →
      data'.take (p + 4 + w.size.toNat) = data.take (p + 4 + w.size.toNat)) :
    Strides data' length offset records := by
  induction h with
  | done hshort => exact .done hshort
  | blank hroom hblank _ ih =>
    refine .blank hroom (fun i hle hlt hi => ?_) (ih hrecords)
    rw [getElem?_congr hhead hi]
    exact hblank i hle hlt hi
  | record hroom hrecord _ ih =>
    exact .record hroom (hrecord.congr (hrecords _ _ List.mem_cons_self))
      (ih fun p w hmem => hrecords p w (List.mem_cons_of_mem _ hmem))

end Strides

end RegisterImage
