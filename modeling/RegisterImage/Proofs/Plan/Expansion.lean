import RegisterImage.Proofs.Plan.Writes

/-!
# Expansion of entries

An entry declares the values of its sequence and then its final value. It is expanded to one write
for every run of equal neighbours among them. No two writes that follow each other are equal, so
that expanding a second time changes nothing.

## Main definitions

* `Runs` — a list next to the values of its runs of equal neighbours.
* `runs_iff` — what is left of a list when its runs are collapsed.
* `emit`, `collapse_eq_foldl` — values written one by one, those that repeat the last one passed
  over.
* `PlanEntry.expand_runs` — the writes of an entry.
-/

namespace RegisterImage

variable {α : Type}

/-! ## Runs of equal neighbours -/

/-- A list cut into its runs of equal elements, each as long as it can be, next to the elements of
the runs. -/
inductive Runs : List α → List α → Prop where
  | nil : Runs [] []
  | run {x : α} {xs ys : List α} (n : Nat) :
      xs.head? ≠ some x → Runs xs ys → Runs (List.replicate (n + 1) x ++ xs) (x :: ys)

/-- An element in front that repeats the first one makes the first run longer. -/
theorem Runs.cons_self {x : α} {xs ys : List α} (h : Runs (x :: xs) ys) :
    Runs (x :: x :: xs) ys := by
  generalize hlist : x :: xs = list at h
  cases h with
  | nil => cases hlist
  | run n hhead hruns =>
    rw [List.replicate_succ, List.cons_append, List.cons.injEq] at hlist
    obtain ⟨rfl, rfl⟩ := hlist
    exact .run (n + 1) hhead hruns

variable [DecidableEq α]

theorem runs_collapse (xs : List α) : Runs xs (collapse xs) := by
  fun_induction collapse xs with
  | case1 => exact .nil
  | case2 x => exact .run 0 (by simp) .nil
  | case3 x xs ih => exact ih.cons_self
  | case4 x y xs hne ih => exact .run 0 (by simpa using Ne.symm hne) ih

theorem collapse_replicate_append {x : α} {xs : List α} (hhead : xs.head? ≠ some x) (n : Nat) :
    collapse (List.replicate (n + 1) x ++ xs) = x :: collapse xs := by
  induction n with
  | zero =>
    cases xs with
    | nil => rfl
    | cons y xs =>
      have hne : x ≠ y := by
        rintro rfl
        exact hhead rfl
      exact if_neg hne
  | succ n ih => exact (if_pos rfl).trans ih

/-- There is only one way to cut a list into its runs. -/
theorem runs_iff {xs ys : List α} : Runs xs ys ↔ ys = collapse xs := by
  constructor
  · intro h
    induction h with
    | nil => rfl
    | run n hhead _ ih => rw [collapse_replicate_append hhead, ← ih]
  · rintro rfl
    exact runs_collapse xs

/-! ## Neighbours -/

theorem collapse_eq_destutter (xs : List α) : collapse xs = xs.destutter (· ≠ ·) := by
  fun_induction collapse xs with
  | case1 => rfl
  | case2 => rfl
  | case3 x xs ih => rw [ih, List.destutter_cons_cons, if_neg (not_not_intro rfl)]; rfl
  | case4 x y xs hne ih => rw [ih, List.destutter_cons_cons, if_pos hne]; rfl

theorem mem_collapse_iff {x : α} {xs : List α} : x ∈ collapse xs ↔ x ∈ xs := by
  refine ⟨mem_of_mem_collapse, fun h => ?_⟩
  fun_induction collapse xs <;> grind

/-- One more value written, unless it repeats the last one. -/
def emit (written : List α) (value : α) : List α :=
  if written.getLast? = some value then written else written ++ [value]

theorem collapse_concat (xs : List α) (x : α) : collapse (xs ++ [x]) = emit (collapse xs) x := by
  unfold emit
  -- What was written last is what was declared last, whether or not it was passed over.
  rw [getLast?_collapse]
  fun_induction collapse xs <;> grind [collapse]

theorem collapse_eq_foldl (xs : List α) : collapse xs = xs.foldl emit [] := by
  induction xs using List.reverseRecOn with
  | nil => rfl
  | append_singleton xs x ih => rw [collapse_concat, ih, List.foldl_concat]

theorem collapse_collapse_concat {xs : List α} {x : α} (h : xs.getLast? = some x) :
    collapse (collapse xs ++ [x]) = collapse xs := by
  have hself : collapse (collapse xs) = collapse xs := by
    simp only [collapse_eq_destutter, List.destutter_idem]
  rw [collapse_concat, hself, emit, getLast?_collapse, if_pos h]

/-! ## Writes of entries -/

namespace PlanEntry

theorem map_value_expand (e : PlanEntry) : e.expand.map (·.value) = e.values := by
  rw [expand, List.map_map]
  exact List.map_id _

/-- A value determines the write, since nothing else changes from one to the next. -/
theorem isChain_expand (e : PlanEntry) : e.expand.IsChain (· ≠ ·) := by
  have hvalues : e.values.IsChain (· ≠ ·) := by
    rw [values, collapse_eq_destutter]
    exact List.isChain_destutter ..
  rw [expand, List.isChain_map]
  exact hvalues.imp fun v v' hne heq => hne (congrArg DeviceWrite.value heq)

theorem expand_written (e : PlanEntry) :
    { e with sequence := e.values : PlanEntry }.expand = e.expand :=
  congrArg (List.map e.write.withValue) (collapse_collapse_concat List.getLast?_concat)

/-- An entry has one write for each run of equal neighbours among its declared values, in the order
of the runs. The writes go to one place, the last one is that of the final value, and no two
neighbours are equal. With the values written for a sequence an entry is written the same. -/
theorem expand_runs (e : PlanEntry) :
    let declared := e.sequence ++ [e.write.value]
    let written := e.expand.map (·.value)
    (∀ values, Runs declared values ↔ values = written) ∧
    written.Sublist declared ∧ (∀ value, value ∈ written ↔ value ∈ declared) ∧
    written = declared.foldl emit [] ∧
    e.expand.IsChain (· ≠ ·) ∧
    e.expand ≠ [] ∧ e.expand.getLast? = some e.write ∧
    (∀ w ∈ e.expand, w.segment = e.write.segment ∧ w.offset = e.write.offset ∧
      w.size = e.write.size) ∧
    { e with sequence := written : PlanEntry }.expand = e.expand := by
  intro declared written
  have hwritten : written = collapse declared := e.map_value_expand
  have hlast : e.expand.getLast? = some e.write := e.getLast?_expand
  refine ⟨fun values => ?_, ?_, fun value => ?_, ?_, e.isChain_expand, ?_, hlast, ?_, ?_⟩
  · rw [hwritten]
    exact runs_iff
  · rw [hwritten, collapse_eq_destutter]
    exact List.destutter_sublist ..
  · rw [hwritten]
    exact mem_collapse_iff
  · rw [hwritten]
    exact collapse_eq_foldl declared
  · intro hnil
    rw [hnil] at hlast
    cases hlast
  · intro w hw
    obtain ⟨value, -, rfl⟩ := List.mem_map.1 hw
    exact ⟨rfl, rfl, rfl⟩
  · rw [hwritten]
    exact e.expand_written

/-- A step that returns to an earlier value is written again. -/
example : (PlanEntry.mk "R" ⟨0, 0x400, 3, 1⟩ [1, 1, 2, 1, 3, 3]).expand.map (·.value) =
    [1, 2, 1, 3] := by decide

end PlanEntry

end RegisterImage
