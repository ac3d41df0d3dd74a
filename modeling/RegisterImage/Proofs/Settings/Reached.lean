import RegisterImage.Proofs.Settings.ReadBack

/-!
# Imports and earlier settings

Writes that are read back replace all settings as soon as one of them reaches a register: what was
set before leaves no trace. When none does, the settings stay as they are.

## Main definitions

* `Settings.importSummary` — which writes reach a register, and how many codes they reach.
* `Settings.applyWrites_of_reached` — what is left of earlier settings, and what the writes leave.
-/

namespace RegisterImage

namespace Settings

/-- What is counted of an import: the pairs of a write and a register that it reaches, the writes
that reach none, and the codes that are reached. -/
def importSummary (c : Catalog) (ws : List DeviceWrite) : WriteSummary where
  matched := (ws ×ˢ c.registers).countP fun p => p.1.Reaches p.2
  unmatched := ws.countP fun w => ∀ r ∈ c.registers, ¬w.Reaches r
  applied :=
    ⟨((c.registers.filter fun r => ∃ w ∈ ws, w.Reaches r).map Register.code).dedup.length, 0⟩

variable {c : Catalog} {ws : List DeviceWrite}

/-! ## Counts -/

theorem length_matching (c : Catalog) (w : DeviceWrite) :
    (c.matching w.slot).length = c.registers.countP fun r => w.Reaches r :=
  List.countP_eq_length_filter.symm

theorem length_flatMap_matching (c : Catalog) (ws : List DeviceWrite) :
    (ws.flatMap fun w => c.matching w.slot).length = (importSummary c ws).matched := by
  unfold importSummary
  induction ws with
  | nil => rfl
  | cons w ws ih =>
    rw [List.flatMap_cons, List.length_append, ih, List.product_cons, List.countP_append,
      List.countP_map, length_matching]
    rfl

theorem length_filter_matching (c : Catalog) (ws : List DeviceWrite) :
    (ws.filter fun w => (c.matching w.slot).isEmpty).length = (importSummary c ws).unmatched := by
  rw [← List.countP_eq_length_filter]
  refine List.countP_congr fun w _ => ?_
  rw [List.isEmpty_iff, Catalog.matching, List.filter_eq_nil_iff]
  simp only [decide_eq_true_eq]
  rfl

/-- The codes that are reached, each of them once. -/
theorem length_writtenValues (c : Catalog) (ws : List DeviceWrite) :
    (writtenValues c ws).entries.length = (importSummary c ws).applied.applied := by
  have hperm : (writtenValues c ws).codes.Perm
      ((c.registers.filter fun r => ∃ w ∈ ws, w.Reaches r).map Register.code).dedup := by
    refine (List.perm_ext_iff_of_nodup (CodeMap.nodup_codes _) (List.nodup_dedup _)).2
      fun code => ?_
    rw [mem_codes_writtenValues_iff]
    simp only [List.mem_dedup, List.mem_map, List.mem_filter, decide_eq_true_eq,
      DeviceWrite.ReachesCode]
    constructor
    · rintro ⟨w, hw, r, hr, hcode, hreaches⟩
      exact ⟨r, ⟨hr, w, hw, hreaches⟩, hcode⟩
    · rintro ⟨r, ⟨hr, w, hw, hreaches⟩, hcode⟩
      exact ⟨w, hw, r, hr, hcode, hreaches⟩
  rw [← List.length_map Prod.fst]
  exact hperm.length_eq

theorem summary_applyValues_writtenValues (c : Catalog) (ws : List DeviceWrite) :
    (applyValues c (writtenValues c ws).entries).2.2 = (importSummary c ws).applied := by
  have hstored : ∀ e ∈ (writtenValues c ws).entries, ¬Skips c e := by
    intro e he hskips
    obtain ⟨hknown, hne⟩ :=
      stored_of_get?_writtenValues (Sorted.lookup_of_mem (writtenValues c ws).sorted he)
    rcases hskips with hnone | hblank
    · simp [hnone] at hknown
    · exact hne hblank
  have happlied : (writtenValues c ws).entries.countP (fun e => ¬Skips c e) =
      (importSummary c ws).applied.applied := by
    rw [← length_writtenValues, List.countP_eq_length]
    simpa using hstored
  have hskipped : (writtenValues c ws).entries.countP (fun e => Skips c e) = 0 := by
    rw [List.countP_eq_zero]
    simpa using hstored
  rw [summary_applyValues, happlied, hskipped]
  rfl

/-! ## Imports -/

theorem isEmpty_writtenValues_iff :
    (writtenValues c ws).entries.isEmpty ↔ ∀ w ∈ ws, ∀ r ∈ c.registers, ¬w.Reaches r := by
  have hcodes : (writtenValues c ws).entries = [] ↔ (writtenValues c ws).codes = [] :=
    List.map_eq_nil_iff.symm
  rw [List.isEmpty_iff, hcodes, List.eq_nil_iff_forall_not_mem]
  simp only [mem_codes_writtenValues_iff, DeviceWrite.ReachesCode]
  constructor
  · intro h w hw r hr hreaches
    exact h r.code ⟨w, hw, r, hr, rfl, hreaches⟩
  · rintro h code ⟨w, hw, r, hr, -, hreaches⟩
    exact h w hw r hr hreaches

theorem applyWrites_eq (s : Settings) (c : Catalog) (ws : List DeviceWrite) :
    s.applyWrites c ws =
      if (writtenValues c ws).entries.isEmpty then
        (s, c, ⟨(importSummary c ws).matched, (importSummary c ws).unmatched, ⟨0, 0⟩⟩)
      else
        ((applyValues c (writtenValues c ws).entries).1,
          (applyValues c (writtenValues c ws).entries).2.1, importSummary c ws) := by
  have hsummary := summary_applyValues_writtenValues c ws
  rw [applyWrites, length_flatMap_matching, length_filter_matching]
  generalize applyValues c (writtenValues c ws).entries = result at hsummary
  obtain ⟨imported, c', applied⟩ := result
  obtain rfl := hsummary
  rfl

/-- Settings stay as they are when no write reaches a register. Otherwise the writes alone decide
the settings: every code has the value of the last write that reaches one of its registers, and
nothing is left of a code that no write reaches. -/
theorem applyWrites_of_reached (c : Catalog) (ws : List DeviceWrite) :
    ((∀ w ∈ ws, ∀ r ∈ c.registers, ¬w.Reaches r) →
      ∀ s : Settings, s.applyWrites c ws = (s, c, ⟨0, ws.length, ⟨0, 0⟩⟩)) ∧
    ((∃ w ∈ ws, ∃ r ∈ c.registers, w.Reaches r) →
      ∃ imported c', (∀ s : Settings, s.applyWrites c ws = (imported, c', importSummary c ws)) ∧
        ∀ code, imported.value? code =
            ((ws.filter (·.ReachesCode c code)).getLast?.map fun w => hexText w.value.toNat) ∧
          ((∀ w ∈ ws, ¬w.ReachesCode c code) → imported.Blank code)) := by
  constructor
  · intro hnone s
    have hmatched : (importSummary c ws).matched = 0 := by
      rw [importSummary, List.countP_eq_zero]
      rintro ⟨w, r⟩ hpair
      obtain ⟨hw, hr⟩ := List.pair_mem_product.1 hpair
      simpa using hnone w hw r hr
    have hunmatched : (importSummary c ws).unmatched = ws.length := by
      rw [importSummary, List.countP_eq_length]
      simpa using hnone
    rw [applyWrites_eq, if_pos (isEmpty_writtenValues_iff.2 hnone), hmatched, hunmatched]
  · rintro ⟨w, hw, r, hr, hreaches⟩
    have hfound : ¬(writtenValues c ws).entries.isEmpty := fun hempty =>
      isEmpty_writtenValues_iff.1 hempty w hw r hr hreaches
    refine ⟨_, _, fun s => (applyWrites_eq s c ws).trans (if_neg hfound), fun code => ?_⟩
    exact ⟨value?_applyValues_writtenValues c ws code, blank_applyValues_writtenValues⟩

/-- Two registers share an address and two a code. The writes reach three of the four, and the
edit of the fourth is lost with its preset; a write that reaches none keeps it. -/
theorem applyWrites_of_reached_shared :
    let register (code address : String) (size : Int) : Register :=
      ⟨code, none, none, .text address, some (.int size), some (.text "0x0"), none, false, .plain,
        none, none, none, none⟩
    let c : Catalog := ⟨.obj [], [register "MODE" "0x20400" 2, register "LANE" "0x20400" 2,
      register "MODE" "0x400" 1, register "LOCK" "0x10" 1], none, none, []⟩
    let earlier : Settings := ⟨CodeMap.insert ∅ "LOCK" "0x2", CodeMap.insert ∅ "LOCK" (),
      CodeMap.insert ∅ "LOCK" "Slow"⟩
    let ws : List DeviceWrite := [⟨2, 0x400, 1, 2⟩, ⟨0, 0x400, 5, 1⟩, ⟨0, 0x999, 7, 4⟩]
    (∃ imported c', empty.applyWrites c ws = (imported, c', ⟨3, 1, ⟨2, 0⟩⟩) ∧
      earlier.applyWrites c ws = (imported, c', ⟨3, 1, ⟨2, 0⟩⟩) ∧
      imported.value? "MODE" = some "0x5" ∧ imported.value? "LANE" = some "0x1" ∧
      imported.Blank "LOCK") ∧
    earlier.applyWrites c [⟨0, 0x999, 7, 4⟩] = (earlier, c, ⟨0, 1, ⟨0, 0⟩⟩) := by
  intro register c earlier ws
  have hsummary : importSummary c ws = ⟨3, 1, ⟨2, 0⟩⟩ := by decide +kernel
  constructor
  · obtain ⟨imported, c', himport, hcodes⟩ :=
      (applyWrites_of_reached c ws).2 (by decide +kernel)
    rw [hsummary] at himport
    exact ⟨imported, c', himport empty, himport earlier,
      (hcodes "MODE").1.trans (by decide +kernel), (hcodes "LANE").1.trans (by decide +kernel),
      (hcodes "LOCK").2 (by decide +kernel)⟩
  · exact (applyWrites_of_reached c [⟨0, 0x999, 7, 4⟩]).1 (by decide +kernel) earlier

end Settings

end RegisterImage
