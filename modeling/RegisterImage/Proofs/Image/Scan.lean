import RegisterImage.Proofs.Image.Extract

/-!
# Complete scans

The scan of a buffer for records goes from one mark to the next, and over a record as a whole. It
takes no more steps than there are bytes, no two records share a byte, and a place where a record
could begin is passed over only inside a record.

## Main definitions

* `findBytes_spec`, `findBytes_le` — no mark lies before the one that is found.
* `CapsuleAt` — a mark with a length that fits the buffer.
* `CapsuleSearch` — the run of the scan over the marks of a buffer.
* `capsuleRecords_complete` — which records are found, and which of them a version is read from.
-/

namespace RegisterImage

/-! ## The next mark -/

section Find

variable {needle bs data : Bytes} {position start found : Nat}

theorem findFrom_spec (h : findFrom needle position bs = some found) :
    needle <+: bs.drop (found - position) ∧
      ∀ i, i < found - position → ¬needle <+: bs.drop i := by
  fun_induction findFrom needle position bs with
  | case1 => cases h
  | case2 position b bs hmark =>
    obtain rfl := Option.some.inj h
    simpa using hmark
  | case3 position b bs hmark ih =>
    obtain ⟨hfound, hbefore⟩ := ih h
    have hle := (le_of_findFrom h).1
    rw [show found - position = found - (position + 1) + 1 by omega]
    refine ⟨hfound, fun i hi => ?_⟩
    cases i with
    | zero => simpa using hmark
    | succ i => exact hbefore i (by omega)

theorem findFrom_eq_none (hne : needle ≠ []) (h : findFrom needle position bs = none) (i : Nat) :
    ¬needle <+: bs.drop i := by
  fun_induction findFrom needle position bs generalizing i with
  | case1 => simpa using hne
  | case2 => cases h
  | case3 position b bs hmark ih =>
    cases i with
    | zero => simpa using hmark
    | succ i => exact ih h i

theorem findBytes_spec (h : findBytes data needle start = some found) :
    needle <+: data.drop found ∧
      ∀ p, start ≤ p → p < found → ¬needle <+: data.drop p := by
  have hle := (le_of_findBytes h).1
  unfold findBytes at h
  split at h
  · obtain ⟨hfound, hbefore⟩ := findFrom_spec h
    simp only [List.drop_drop] at hfound hbefore
    rw [Nat.add_sub_cancel' hle] at hfound
    refine ⟨hfound, fun p hstart hp => ?_⟩
    have hnot := hbefore (p - start) (by omega)
    rwa [Nat.add_sub_cancel' hstart] at hnot
  · cases h

theorem findBytes_le (h : findBytes data needle start = some found) {p : Nat}
    (hmark : needle <+: data.drop p) (hp : start ≤ p) : found ≤ p := by
  by_contra hlt
  exact (findBytes_spec h).2 p hp (Nat.not_le.1 hlt) hmark

theorem findBytes_eq_none (hne : needle ≠ []) (h : findBytes data needle start = none) {p : Nat}
    (hp : start ≤ p) : ¬needle <+: data.drop p := by
  unfold findBytes at h
  split at h
  · have hnot := findFrom_eq_none hne h (p - start)
    rwa [List.drop_drop, Nat.add_sub_cancel' hp] at hnot
  · rw [List.drop_eq_nil_of_le (by omega), List.prefix_nil]
    exact hne

end Find

/-! ## Records -/

/-- A mark with a length that is not too short for a record and fits the buffer. -/
structure CapsuleAt (data : Bytes) (position length : Nat) : Prop where
  mark : capsuleMark <+: data.drop position
  length_eq : (readLe32? (data.drop (position + 4))).map UInt32.toNat = some length
  lead_le : capsuleLead ≤ length
  room : position + length ≤ data.length

theorem capsuleLength?_eq_some_iff {data : Bytes} {position length : Nat} :
    capsuleLength? (data.drop position) = some length ↔ CapsuleAt data position length := by
  have hfits (hlead : capsuleLead ≤ length) :
      length ≤ (data.drop position).length ↔ position + length ≤ data.length := by
    rw [capsuleLead] at hlead
    rw [List.length_drop]
    omega
  unfold capsuleLength?
  split
  · rename_i hmark
    rw [List.drop_drop, Option.filter_eq_some_iff, decide_eq_true_eq]
    constructor
    · rintro ⟨hlength, hlead, hroom⟩
      exact ⟨List.isPrefixOf_iff_prefix.1 hmark, hlength, hlead, (hfits hlead).1 hroom⟩
    · intro h
      exact ⟨h.length_eq, h.lead_le, (hfits h.lead_le).2 h.room⟩
  · rename_i hmark
    constructor
    · intro h
      cases h
    · intro h
      exact absurd (List.isPrefixOf_iff_prefix.2 h.mark) hmark

theorem capsuleLength?_eq_none_iff {data : Bytes} {position : Nat} :
    capsuleLength? (data.drop position) = none ↔ ∀ length, ¬CapsuleAt data position length := by
  simp only [Option.eq_none_iff_forall_ne_some, ne_eq, capsuleLength?_eq_some_iff]

section Slice

variable {data : Bytes} {position length : Nat} (h : CapsuleAt data position length)
include h

theorem CapsuleAt.length_pos : 0 < length :=
  Nat.lt_of_lt_of_le (by decide) h.lead_le

theorem CapsuleAt.length_slice : ((data.drop position).take length).length = length := by
  have hroom := h.room
  exact List.length_take_of_le (by rw [List.length_drop]; omega)

/-- The bytes of a record are a record by themselves. -/
theorem CapsuleAt.slice : CapsuleAt ((data.drop position).take length) 0 length := by
  have hlead : 12 ≤ length := h.lead_le
  have hsame := take_take_self (data.drop position) length
  constructor
  · exact List.prefix_take_iff.2 ⟨h.mark, by simp [capsuleMark]; omega⟩
  · rw [Nat.zero_add, readLe32?_congr hsame (by omega), List.drop_drop, h.length_eq]
  · exact h.lead_le
  · rw [h.length_slice, Nat.zero_add]

end Slice

/-! ## The run of the scan -/

/-- The run of the scan from an offset on: it goes from mark to mark, over `marks` of them, and
leaves the records. -/
inductive CapsuleSearch (data : Bytes) : Nat → Nat → List (Nat × Bytes) → Prop where
  | done {offset : Nat} : findBytes data capsuleMark offset = none →
      CapsuleSearch data offset 0 []
  | passed {offset position marks : Nat} {records : List (Nat × Bytes)} :
      findBytes data capsuleMark offset = some position →
      (∀ length, ¬CapsuleAt data position length) →
      CapsuleSearch data (position + 1) marks records →
      CapsuleSearch data offset (marks + 1) records
  | record {offset position length marks : Nat} {records : List (Nat × Bytes)} :
      findBytes data capsuleMark offset = some position →
      CapsuleAt data position length →
      CapsuleSearch data (position + length) marks records →
      CapsuleSearch data offset (marks + 1)
        ((position, (data.drop position).take length) :: records)

/-- By induction on the bytes that are left, of which every mark takes one or more. -/
theorem exists_capsuleSearch (data : Bytes) (offset : Nat) :
    ∃ marks records, CapsuleSearch data offset marks records := by
  induction hn : data.length - offset using Nat.strong_induction_on generalizing offset with
  | _ left ih =>
  cases hfound : findBytes data capsuleMark offset with
  | none => exact ⟨0, [], .done hfound⟩
  | some position =>
    have hle := le_of_findBytes hfound
    by_cases h : ∃ length, CapsuleAt data position length
    · obtain ⟨length, hat⟩ := h
      have hpos := hat.length_pos
      obtain ⟨marks, records, hmore⟩ := ih _ (by omega) (position + length) rfl
      exact ⟨_, _, .record hfound hat hmore⟩
    · push Not at h
      obtain ⟨marks, records, hmore⟩ := ih _ (by omega) (position + 1) rfl
      exact ⟨_, _, .passed hfound h hmore⟩

namespace CapsuleSearch

variable {data : Bytes} {offset marks : Nat} {records : List (Nat × Bytes)}

theorem eq_capsuleScan (h : CapsuleSearch data offset marks records) :
    records = capsuleScan offset (data.drop offset) := by
  induction h with
  | @done offset hfound =>
    by_cases hle : offset ≤ data.length
    · rw [findBytes, if_pos hle] at hfound
      rw [capsuleScan_of_findFrom_eq_none hfound]
    · rw [List.drop_eq_nil_of_le (by omega), capsuleScan]
  | passed hfound hnot _ ih =>
    rw [(capsuleScan_of_findBytes hfound).2,
      capsuleScan_of_no_record (capsuleLength?_eq_none_iff.2 hnot), List.drop_drop, ← ih]
  | record hfound hat _ ih =>
    rw [(capsuleScan_of_findBytes hfound).2,
      capsuleScan_of_record (capsuleLength?_eq_some_iff.2 hat), List.drop_drop, ← ih]

theorem marks_le (h : CapsuleSearch data offset marks records) :
    marks ≤ data.length - offset := by
  induction h with
  | done => exact Nat.zero_le _
  | passed hfound _ _ ih =>
    have hle := le_of_findBytes hfound
    omega
  | record hfound hat _ ih =>
    have hle := le_of_findBytes hfound
    have hpos := hat.length_pos
    omega

/-- Every record is one of the buffer, from the offset on. -/
theorem capsuleAt_of_mem (h : CapsuleSearch data offset marks records) {r : Nat × Bytes}
    (hr : r ∈ records) :
    offset ≤ r.1 ∧ CapsuleAt data r.1 r.2.length ∧ (data.drop r.1).take r.2.length = r.2 := by
  induction h with
  | done => cases hr
  | passed hfound _ _ ih =>
    have hle := le_of_findBytes hfound
    obtain ⟨hoffset, hat⟩ := ih hr
    exact ⟨by omega, hat⟩
  | @record offset position length _ _ hfound hat _ ih =>
    have hle := le_of_findBytes hfound
    rcases List.mem_cons.1 hr with rfl | hr
    · dsimp only
      rw [hat.length_slice]
      exact ⟨hle.1, hat, rfl⟩
    · obtain ⟨hoffset, hrecord⟩ := ih hr
      exact ⟨by omega, hrecord⟩

theorem pairwise (h : CapsuleSearch data offset marks records) :
    records.Pairwise fun r r' => r.1 + r.2.length ≤ r'.1 := by
  induction h with
  | done => exact .nil
  | passed _ _ _ ih => exact ih
  | record _ hat hmore ih =>
    refine .cons (fun r hr => ?_) ih
    dsimp only
    rw [hat.length_slice]
    exact (hmore.capsuleAt_of_mem hr).1

/-- A place where a record could begin is one that is found, or inside one. -/
theorem exists_covering (h : CapsuleSearch data offset marks records) {p length : Nat}
    (hat : CapsuleAt data p length) (hp : offset ≤ p) :
    ∃ r ∈ records, r.1 ≤ p ∧ p < r.1 + r.2.length := by
  induction h with
  | done hfound => exact absurd hat.mark (findBytes_eq_none (by decide) hfound hp)
  | passed hfound hnot _ ih =>
    have hle := findBytes_le hfound hat.mark hp
    rcases hle.eq_or_lt with rfl | hlt
    · exact absurd hat (hnot length)
    · exact ih hlt
  | @record _ position size _ records hfound hrecord _ ih =>
    have hle := findBytes_le hfound hat.mark hp
    by_cases hinside : p < position + size
    · refine ⟨_, List.mem_cons_self, hle, ?_⟩
      rwa [hrecord.length_slice]
    · obtain ⟨r, hr, hcovers⟩ := ih (Nat.not_lt.1 hinside)
      exact ⟨r, List.mem_cons_of_mem _ hr, hcovers⟩

end CapsuleSearch

/-! ## Complete scans -/

/-- Records that share no byte, and outside of which no record could begin. -/
structure CapsuleCover (data : Bytes) (records : List (Nat × Bytes)) : Prop where
  apart : records.Pairwise fun r r' => r.1 < r'.1 ∧ r.1 + r.2.length ≤ r'.1
  within : ∀ r ∈ records, r.1 + r.2.length ≤ data.length ∧
    (data.drop r.1).take r.2.length = r.2 ∧ CapsuleAt r.2 0 r.2.length
  covers : ∀ position length, CapsuleAt data position length →
    position ∈ records.map Prod.fst ∨
      ∃ r ∈ records, r.1 < position ∧ position < r.1 + r.2.length

theorem CapsuleSearch.cover {data : Bytes} {marks : Nat} {records : List (Nat × Bytes)}
    (h : CapsuleSearch data 0 marks records) : CapsuleCover data records where
  apart := by
    refine h.pairwise.imp_of_mem fun {r r'} hr _ hle => ⟨?_, hle⟩
    obtain ⟨-, hat, -⟩ := h.capsuleAt_of_mem hr
    have hpos := hat.length_pos
    omega
  within := by
    intro r hr
    obtain ⟨-, hat, hslice⟩ := h.capsuleAt_of_mem hr
    have hself := hat.slice
    rw [hslice] at hself
    exact ⟨hat.room, hslice, hself⟩
  covers := by
    intro position length hat
    obtain ⟨r, hr, hle, hlt⟩ := h.exists_covering hat (Nat.zero_le _)
    rcases hle.eq_or_lt with rfl | hinside
    · exact .inl (List.mem_map_of_mem hr)
    · exact .inr ⟨r, hr, hinside, hlt⟩

theorem embeddedFirmware?_eq_some_iff {data : Bytes} {info : FirmwareInfo} :
    embeddedFirmware? data = some info ↔
      ∃ before r after chip, capsuleRecords data = before ++ r :: after ∧
        (∀ r' ∈ before, ∀ chip' : Chip, ¬chip'.firmwareSignature <:+: r'.2) ∧
        Chip.all.find? (fun chip => chip.firmwareSignature <:+: r.2) = some chip ∧
        info = ⟨chip, dateText? (r.2.drop capsuleDateOffset), chip.maxFirmwareSize⟩ := by
  simp only [embeddedFirmware?, List.findSome?_eq_some_iff, FirmwareInfo.ofBytes?_eq_none_iff,
    FirmwareInfo.ofBytes?_eq_some_iff]
  constructor
  · rintro ⟨before, r, after, hsplit, ⟨chip, hchip, hinfo⟩, hbefore⟩
    exact ⟨before, r, after, chip, hsplit, hbefore, hchip, hinfo⟩
  · rintro ⟨before, r, after, chip, hsplit, hbefore, hchip, hinfo⟩
    exact ⟨before, r, after, hsplit, ⟨chip, hchip, hinfo⟩, hbefore⟩

theorem isSome_embeddedFirmware?_iff (data : Bytes) : (embeddedFirmware? data).isSome ↔
    ∃ r ∈ capsuleRecords data, ∃ chip : Chip, chip.firmwareSignature <:+: r.2 := by
  rw [embeddedFirmware?, List.findSome?_isSome_iff]
  simp only [Option.isSome_iff_ne_none, ne_eq, FirmwareInfo.ofBytes?_eq_none_iff, not_forall,
    not_not]

/-- The scan ends after no more marks than there are bytes, in one way only. Its records share no
byte, and outside of them there is no place where one could begin. A version is read when a record
names a chip, and from the first that does. -/
theorem capsuleRecords_complete (data : Bytes) :
    (∃ marks ≤ data.length, CapsuleSearch data 0 marks (capsuleRecords data) ∧
      ∀ marks' records, CapsuleSearch data 0 marks' records → records = capsuleRecords data) ∧
    CapsuleCover data (capsuleRecords data) ∧
    ((embeddedFirmware? data).isSome ↔
      ∃ r ∈ capsuleRecords data, ∃ chip : Chip, chip.firmwareSignature <:+: r.2) ∧
    ∀ info, embeddedFirmware? data = some info ↔
      ∃ before r after chip, capsuleRecords data = before ++ r :: after ∧
        (∀ r' ∈ before, ∀ chip' : Chip, ¬chip'.firmwareSignature <:+: r'.2) ∧
        Chip.all.find? (fun chip => chip.firmwareSignature <:+: r.2) = some chip ∧
        info = ⟨chip, dateText? (r.2.drop capsuleDateOffset), chip.maxFirmwareSize⟩ := by
  obtain ⟨marks, records, hsearch⟩ := exists_capsuleSearch data 0
  have hrecords {marks' : Nat} {records' : List (Nat × Bytes)}
      (h : CapsuleSearch data 0 marks' records') : records' = capsuleRecords data :=
    h.eq_capsuleScan
  obtain rfl := hrecords hsearch
  exact ⟨⟨marks, hsearch.marks_le, hsearch, fun marks' records' => hrecords⟩, hsearch.cover,
    isSome_embeddedFirmware?_iff data, fun info => embeddedFirmware?_eq_some_iff⟩

/-- A mark that overlaps the one of the first record, a record within that record, a second record
that names a chip, and a mark too near the end. -/
theorem capsuleRecords_complete_of_overlapping :
    let plain : Bytes := capsuleMark ++ le32 24 ++ capsuleMark ++ le32 12 ++ le32 0 ++ [0, 0, 0, 0]
    let named : Bytes := capsuleMark ++ le32 32 ++ le32 0 ++ Chip.prom19.firmwareSignature ++
      List.replicate 12 0
    let data : Bytes := [0x5F, 0x50, 0x54] ++ plain ++ named ++ capsuleMark ++ [12, 0]
    CapsuleSearch data 0 4 [(3, plain), (27, named)] ∧
      capsuleRecords data = [(3, plain), (27, named)] ∧ CapsuleAt data 11 12 ∧
      (∃ r ∈ capsuleRecords data, r.1 < 11 ∧ 11 < r.1 + r.2.length) ∧
      embeddedFirmware? data = some ⟨.prom19, none, 0x20000⟩ := by
  intro plain named data
  obtain ⟨⟨-, -, -, hunique⟩, hcover, -, hfirmware⟩ := capsuleRecords_complete data
  have hoverlapping : ∀ length, ¬CapsuleAt data 0 length :=
    capsuleLength?_eq_none_iff.1 (by decide +kernel)
  have hcut : ∀ length, ¬CapsuleAt data 59 length :=
    capsuleLength?_eq_none_iff.1 (by decide +kernel)
  have hplain : CapsuleAt data 3 24 := capsuleLength?_eq_some_iff.1 (by decide +kernel)
  have hinner : CapsuleAt data 11 12 := capsuleLength?_eq_some_iff.1 (by decide +kernel)
  have hnamed : CapsuleAt data 27 32 := capsuleLength?_eq_some_iff.1 (by decide +kernel)
  have hsearch : CapsuleSearch data 0 4 [(3, plain), (27, named)] :=
    .passed (by decide +kernel) hoverlapping <| .record (by decide +kernel) hplain <|
      .record (by decide +kernel) hnamed <| .passed (by decide +kernel) hcut <|
        .done (by decide +kernel)
  have hrecords := (hunique _ _ hsearch).symm
  refine ⟨hsearch, hrecords, hinner, ?_, ?_⟩
  · rcases hcover.covers 11 12 hinner with hfound | hinside
    · rw [hrecords] at hfound
      exact absurd hfound (by simp)
    · exact hinside
  · refine (hfirmware _).2 ⟨[(3, plain)], (27, named), [], .prom19, hrecords, ?_, ?_, ?_⟩
    · rintro r hr chip
      obtain rfl := List.mem_singleton.1 hr
      cases chip <;> decide +kernel
    · decide +kernel
    · decide +kernel

end RegisterImage
