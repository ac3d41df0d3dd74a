import RegisterImage.Image.Capsule
import RegisterImage.Proofs.Access.Decode

/-!
# Searching capsules without slips

The scan for records by positions in the buffer: it goes on from one mark to the next, and the
length that follows a mark is whatever the buffer says.

## Main definitions

* `capsuleRecordsChecked` — the records from a position on, with checked access.
* `capsuleRecordsChecked_eq` — the scan does not slip and finds the records.
* `embeddedFirmwareChecked_eq`, `detectFirmwareChecked_eq` — nor do the readers of versions.
-/

namespace RegisterImage

/-! ## One record -/

/-- The end of the record whose mark is at a position, when there is one. -/
def recordEndChecked (data : Bytes) (position : Nat) : Checked (Option Nat) :=
  if data.length < position + capsuleLead then return none
  else do
    let length? ← readLe32At data (position + 4)
    return (((length?.map UInt32.toNat).filter fun n => decide (capsuleLead ≤ n)).map
      (position + ·)).filter fun last => decide (last ≤ data.length)

section Records

variable {data bs : Bytes} {position last n : Nat}

theorem recordEndChecked_eq (hmark : capsuleMark.isPrefixOf (data.drop position) = true) :
    recordEndChecked data position = .ok ((capsuleLength? (data.drop position)).map
      (position + ·)) := by
  simp only [recordEndChecked, capsuleLength?, hmark, if_true, readLe32At_eq, Checked.ok_bind,
    Checked.pure_eq_ok, List.drop_drop, List.length_drop]
  cases readLe32? (data.drop (position + 4)) with
  | none => simp
  | some size =>
    by_cases hmin : capsuleLead ≤ size.toNat
    · by_cases hlast : position + size.toNat ≤ data.length
      · have hlast' : size.toNat ≤ data.length - position := by omega
        have hlong : ¬data.length < position + capsuleLead := by omega
        simp [Option.filter_some, hmin, hlast, hlast', hlong]
      · have hlast' : ¬size.toNat ≤ data.length - position := by
          simp only [capsuleLead] at hmin
          omega
        simp [Option.filter_some, hmin, hlast, hlast']
    · simp [Option.filter_some, hmin]

theorem le_of_recordEndChecked (h : recordEndChecked data position = .ok (some last)) :
    position + capsuleLead ≤ last ∧ last ≤ data.length := by
  unfold recordEndChecked at h
  split at h
  · cases h
  · simp only [readLe32At_eq, Checked.ok_bind, Checked.pure_eq_ok, Except.ok.injEq] at h
    simp only [Option.filter_eq_some_iff, Option.map_eq_some_iff, decide_eq_true_eq] at h
    obtain ⟨⟨n, ⟨-, hmin⟩, rfl⟩, hlast⟩ := h
    omega

/-! ## The scan -/

theorem capsuleScan_of_record (h : capsuleLength? bs = some n) :
    capsuleScan position bs =
      (position, bs.take n) :: capsuleScan (position + n) (bs.drop n) := by
  cases bs with
  | nil => cases h
  | cons b bs =>
    rw [capsuleScan]
    split
    · simp_all
    · simp_all

theorem capsuleScan_of_no_record (h : capsuleLength? bs = none) :
    capsuleScan position bs = capsuleScan (position + 1) (bs.drop 1) := by
  cases bs with
  | nil => simp [capsuleScan]
  | cons b bs =>
    rw [capsuleScan]
    split
    · simp_all
    · rfl

/-- The scan may go on from the next mark. -/
theorem capsuleScan_of_findFrom {found : Nat}
    (h : findFrom capsuleMark position bs = some found) :
    capsuleMark.isPrefixOf (bs.drop (found - position)) = true ∧
      capsuleScan position bs = capsuleScan found (bs.drop (found - position)) := by
  fun_induction findFrom capsuleMark position bs with
  | case1 => cases h
  | case2 position b bs hmark =>
    cases h
    simp [hmark]
  | case3 position b bs hmark ih =>
    have hnone : capsuleLength? (b :: bs) = none := by
      simp [capsuleLength?, hmark]
    have hle := (le_of_findFrom h).1
    have hsub : found - position = found - (position + 1) + 1 := by omega
    rw [capsuleScan_of_no_record hnone, hsub, List.drop_succ_cons]
    exact ih h

theorem capsuleScan_of_findBytes {found : Nat}
    (h : findBytes data capsuleMark position = some found) :
    capsuleMark.isPrefixOf (data.drop found) = true ∧
      capsuleScan position (data.drop position) = capsuleScan found (data.drop found) := by
  have hle := (le_of_findBytes h).1
  unfold findBytes at h
  split at h
  · have hscan := capsuleScan_of_findFrom h
    rwa [List.drop_drop, Nat.add_sub_cancel' hle] at hscan
  · cases h

theorem capsuleScan_of_findFrom_eq_none (h : findFrom capsuleMark position bs = none) :
    capsuleScan position bs = [] := by
  fun_induction findFrom capsuleMark position bs with
  | case1 => simp [capsuleScan]
  | case2 => cases h
  | case3 position b bs hmark ih =>
    have hnone : capsuleLength? (b :: bs) = none := by
      simp [capsuleLength?, hmark]
    rw [capsuleScan_of_no_record hnone]
    exact ih h

end Records

/-- The records from a position on. A mark without a record is passed over by one byte. All of
them are found before any is used, so that a slip behind the first usable one shows as well. -/
def capsuleRecordsChecked (data : Bytes) (position : Nat) : Checked (List (Nat × Bytes)) :=
  if position < data.length then
    match _hfound : findBytes data capsuleMark position with
    | none => return []
    | some found =>
      match hend : recordEndChecked data found with
      | .error slip => .error slip
      | .ok none => capsuleRecordsChecked data (found + 1)
      | .ok (some last) => do
        let record ← slice data found last
        let records ← capsuleRecordsChecked data last
        return (found, record) :: records
  else return []
termination_by data.length - position
decreasing_by
  · have hfound := le_of_findBytes _hfound
    omega
  · have hfound := le_of_findBytes _hfound
    have hlast := le_of_recordEndChecked hend
    simp only [capsuleLead] at hlast
    omega

theorem capsuleRecordsChecked_eq (data : Bytes) (position : Nat) :
    capsuleRecordsChecked data position = .ok (capsuleScan position (data.drop position)) := by
  fun_induction capsuleRecordsChecked data position with
  | case1 position hlt hfound =>
    rw [findBytes, if_pos (by omega)] at hfound
    rw [capsuleScan_of_findFrom_eq_none hfound]
    rfl
  | case2 position hlt found hfound slip hend =>
    rw [recordEndChecked_eq (capsuleScan_of_findBytes hfound).1] at hend
    cases hend
  | case3 position hlt found hfound hend ih =>
    obtain ⟨hmark, hscan⟩ := capsuleScan_of_findBytes hfound
    rw [recordEndChecked_eq hmark, Except.ok.injEq, Option.map_eq_none_iff] at hend
    rw [ih, hscan, capsuleScan_of_no_record hend, List.drop_drop]
  | case4 position hlt found hfound last hend ih =>
    obtain ⟨hmark, hscan⟩ := capsuleScan_of_findBytes hfound
    rw [recordEndChecked_eq hmark, Except.ok.injEq, Option.map_eq_some_iff] at hend
    obtain ⟨n, hn, rfl⟩ := hend
    have hle := (capsuleLead_le_of_capsuleLength? hn).2
    rw [List.length_drop] at hle
    have hfound' := (le_of_findBytes hfound).2
    rw [hscan, capsuleScan_of_record hn, slice_eq_ok (by omega) (by omega), ih, List.drop_drop,
      Nat.add_sub_cancel_left]
    rfl
  | case5 position hle =>
    rw [List.drop_eq_nil_of_le (by omega), capsuleScan]
    rfl

/-! ## Records and versions -/

theorem capsuleLength?_lt {bs : Bytes} {n : Nat} (h : capsuleLength? bs = some n) : n < 2 ^ 32 := by
  unfold capsuleLength? at h
  split at h
  · obtain ⟨hsize, -⟩ := Option.filter_eq_some_iff.1 h
    obtain ⟨size, -, rfl⟩ := Option.map_eq_some_iff.1 hsize
    exact size.toNat_lt
  · cases h

/-- The lengths of records. -/
theorem length_of_mem_capsuleScan {r : Nat × Bytes} {position : Nat} {bs : Bytes}
    (h : r ∈ capsuleScan position bs) : capsuleLead ≤ r.2.length ∧ r.2.length < 2 ^ 32 := by
  fun_induction capsuleScan position bs with
  | case1 => simp at h
  | case2 position b bs n hn ih =>
    rcases List.mem_cons.1 h with rfl | hmem
    · have hle := capsuleLead_le_of_capsuleLength? hn
      have hlt := capsuleLength?_lt hn
      rw [List.length_take_of_le hle.2]
      exact ⟨hle.1, hlt⟩
    · exact ih hmem
  | case3 position b bs hn ih => exact ih h

def embeddedFirmwareChecked (data : Bytes) : Checked (Option FirmwareInfo) := do
  let records ← capsuleRecordsChecked data 0
  records.findSomeM? fun r => FirmwareInfo.decodeChecked r.2 capsuleDateOffset

def detectFirmwareChecked (data : Bytes) : Checked (Option FirmwareInfo) := do
  match ← embeddedFirmwareChecked data with
  | some info => return some info
  | none =>
    match ← SpiImage.ofBytesChecked data with
    | .ok (some image) => return image.firmware.filter (·.date.isSome)
    | _ => return none

theorem embeddedFirmwareChecked_eq (data : Bytes) :
    embeddedFirmwareChecked data = .ok (embeddedFirmware? data) := by
  rw [embeddedFirmwareChecked, capsuleRecordsChecked_eq]
  exact Checked.findSomeM?_eq_ok fun r _ => FirmwareInfo.decodeChecked_eq ..

theorem detectFirmwareChecked_eq (data : Bytes) :
    detectFirmwareChecked data = .ok (detectFirmware? data) := by
  simp only [detectFirmwareChecked, detectFirmware?, embeddedFirmwareChecked_eq,
    SpiImage.ofBytesChecked_eq, Checked.ok_bind]
  cases embeddedFirmware? data with
  | some info => rfl
  | none =>
    rcases SpiImage.ofBytes? data with error | (- | image) <;> rfl

end RegisterImage
