import RegisterImage.Plan.Compile
import RegisterImage.Proofs.Catalog.Coherent

/-!
# Contributions of registers

The entries of a compiled plan are what the registers contribute, one after the other. What a
register contributes depends on its own value, its own preset and its own menu, and on the
number of entries before it.

## Main definitions

* `Register.contribution` — what one register contributes.
* `contributions` — what a list of registers contributes.
* `Catalog.compile_entries` — the entries of a plan, with the menus that are remembered afterwards.
* `Catalog.mem_compile` — every entry is contributed by some register, with the menu that is
  remembered for it.
* `Catalog.Distinct.compile_entries` — the entries of a plan, when no two codes are the same.
-/

namespace RegisterImage

/-! ## Writes of presets -/

namespace Candidate

variable {code : String} {count : Nat} {writes : List PresetWrite}

/-- The writes of a preset come without steps and not under the code of the register. -/
theorem mem_presetEntries {e : PlanEntry} (h : e ∈ presetEntries code count writes) :
    e.sequence = [] ∧ e.code ≠ code ∧ ∃ w ∈ writes, w.toDevice? = some e.write := by
  obtain ⟨⟨write, n⟩, hwrite, rfl⟩ := List.mem_map.1 h
  obtain ⟨w, hw, hdevice⟩ := List.mem_filterMap.1 (List.fst_mem_of_mem_zipIdx hwrite)
  refine ⟨rfl, fun hcode => ?_, w, hw, hdevice⟩
  have hlength := congrArg String.length hcode
  simp only [String.length_append] at hlength
  have : "_write_".length = 7 := rfl
  omega

theorem map_write_presetEntries (code : String) (count : Nat) (writes : List PresetWrite) :
    (presetEntries code count writes).map PlanEntry.write =
      writes.filterMap PresetWrite.toDevice? := by
  rw [presetEntries, List.map_map]
  exact List.zipIdx_map_fst count _

end Candidate

/-! ## Contributions -/

/-- What a register contributes after `count` entries of others. -/
def Register.contribution (r : Register) (s : Settings) (menu : Menu) (count : Nat) :
    List PlanEntry :=
  match r.candidate? (s.value? r.code) (s.preset? r.code) with
  | none => []
  | some k => k.entries menu count

theorem Register.candidate?_of_mem_contribution {r : Register} {s : Settings} {menu : Menu}
    {count : Nat} {e : PlanEntry} (h : e ∈ r.contribution s menu count) :
    ∃ k, r.candidate? (s.value? r.code) (s.preset? r.code) = some k ∧
      e ∈ k.entries menu count := by
  unfold contribution at h
  split at h
  · exact absurd h List.not_mem_nil
  · exact ⟨_, ‹_›, h⟩

/-- What registers with some menus contribute after `count` entries of others. -/
def contributions (s : Settings) (menu : Register → Menu) : List Register → Nat → List PlanEntry
  | [], _ => []
  | r :: rs, count =>
    let own := r.contribution s (menu r) count
    own ++ contributions s menu rs (count + own.length)

theorem contributions_append (s : Settings) (menu : Register → Menu) (rs rs' : List Register)
    (count : Nat) :
    contributions s menu (rs ++ rs') count =
      contributions s menu rs count ++
        contributions s menu rs' (count + (contributions s menu rs count).length) := by
  induction rs generalizing count with
  | nil => simp [contributions]
  | cons r rs ih =>
    simp only [List.cons_append, contributions, ih, List.append_assoc, List.length_append,
      Nat.add_assoc]

theorem contributions_congr {s s' : Settings} {menu menu' : Register → Menu} {rs : List Register}
    (h : ∀ r ∈ rs, ∀ count, r.contribution s (menu r) count = r.contribution s' (menu' r) count)
    (count : Nat) : contributions s menu rs count = contributions s' menu' rs count := by
  induction rs generalizing count with
  | nil => rfl
  | cons r rs ih =>
    obtain ⟨hr, hrs⟩ := List.forall_mem_cons.1 h
    simp only [contributions, hr, ih hrs]

theorem mem_contributions {s : Settings} {menu : Register → Menu} {rs : List Register} {count : Nat}
    {e : PlanEntry} (h : e ∈ contributions s menu rs count) :
    ∃ r ∈ rs, ∃ count, e ∈ r.contribution s (menu r) count := by
  induction rs generalizing count with
  | nil => cases h
  | cons r rs ih =>
    rcases List.mem_append.1 h with hown | hrest
    · exact ⟨r, List.mem_cons_self, count, hown⟩
    · obtain ⟨r', hr', hlater⟩ := ih hrest
      exact ⟨r', List.mem_cons_of_mem _ hr', hlater⟩

namespace Catalog

/-! ## One more register -/

theorem compileRegister_fst (s : Settings) (state : List PlanEntry × MenuMemo) (r : Register) :
    (compileRegister s state r).1 =
      state.1 ++ r.contribution s (state.2.lookup r).1 state.1.length := by
  unfold compileRegister Register.contribution
  cases r.candidate? (s.value? r.code) (s.preset? r.code) with
  | none => simp
  | some k => rfl

theorem compileRegister_menu (s : Settings) (state : List PlanEntry × MenuMemo)
    {r r' : Register} (h : r'.code = r.code → r' = r) :
    ((compileRegister s state r).2.lookup r').1 = (state.2.lookup r').1 := by
  unfold compileRegister
  cases r.candidate? (s.value? r.code) (s.preset? r.code) with
  | none => rfl
  | some k => exact state.2.lookup_lookup h

theorem extends_compileRegister (s : Settings) (state : List PlanEntry × MenuMemo)
    (r : Register) : (compileRegister s state r).2.Extends state.2 := by
  unfold compileRegister
  cases r.candidate? (s.value? r.code) (s.preset? r.code) with
  | none => exact .refl _
  | some k => exact state.2.extends_lookup r

/-- Whoever remembers the menu of a register that contributes finds the same contribution. -/
theorem contribution_of_extends {s : Settings} {state : List PlanEntry × MenuMemo} {r : Register}
    {memo : MenuMemo} (h : memo.Extends (compileRegister s state r).2) (count : Nat) :
    r.contribution s (memo.lookup r).1 count = r.contribution s (state.2.lookup r).1 count := by
  unfold compileRegister at h
  unfold Register.contribution
  cases hk : r.candidate? (s.value? r.code) (s.preset? r.code) with
  | none => rfl
  | some k =>
    rw [hk] at h
    rw [h.lookup_fst_eq]

/-! ## All registers -/

theorem extends_foldl_compileRegister (s : Settings) (rs : List Register)
    (state : List PlanEntry × MenuMemo) :
    (rs.foldl (compileRegister s) state).2.Extends state.2 :=
  List.foldlRecOn (motive := fun later => later.2.Extends state.2) rs _ (.refl _)
    fun later hlater r _ => (extends_compileRegister s later r).trans hlater

/-- By induction on the registers: every menu that is looked at stays remembered. -/
theorem foldl_compileRegister {s : Settings} {rs : List Register}
    {state : List PlanEntry × MenuMemo} {memo : MenuMemo}
    (h : memo.Extends (rs.foldl (compileRegister s) state).2) :
    (rs.foldl (compileRegister s) state).1 =
      state.1 ++ contributions s (fun r => (memo.lookup r).1) rs state.1.length := by
  induction rs generalizing state with
  | nil => simp [contributions]
  | cons r rs ih =>
    rw [List.foldl_cons] at h ⊢
    have hone : memo.Extends (compileRegister s state r).2 :=
      h.trans (extends_foldl_compileRegister s rs _)
    rw [ih h, compileRegister_fst, contributions, contribution_of_extends hone, List.append_assoc,
      List.length_append]

/-- Whatever has been remembered, the entries are what the registers contribute with the menus that
are remembered in the end. -/
theorem compile_entries (c : Catalog) (s : Settings) :
    (c.compile s).1.entries =
      contributions s (fun r => ((c.compile s).2.menu r).1) c.registers 0 :=
  @foldl_compileRegister s c.registers ([], c.memo) _ (.refl _)

theorem mem_compile {c : Catalog} {s : Settings} {e : PlanEntry}
    (h : e ∈ (c.compile s).1.entries) :
    ∃ r ∈ c.registers, ∃ count, e ∈ r.contribution s ((c.compile s).2.menu r).1 count := by
  rw [compile_entries] at h
  exact mem_contributions h

theorem foldl_compileRegister_menu {c : Catalog} (h : c.Distinct) (s : Settings)
    {rs : List Register} (hrs : ∀ r ∈ rs, r ∈ c.registers)
    (state : List PlanEntry × MenuMemo) {r : Register} (hr : r ∈ c.registers) :
    ((rs.foldl (compileRegister s) state).2.lookup r).1 = (state.2.lookup r).1 := by
  induction rs generalizing state with
  | nil => rfl
  | cons r' rs ih =>
    obtain ⟨hr', hrs⟩ := List.forall_mem_cons.1 hrs
    rw [List.foldl_cons, ih hrs,
      compileRegister_menu s state fun hcode => h.eq_of_code_eq hr hr' hcode]

theorem Distinct.alike_compile {c : Catalog} (h : c.Distinct) (s : Settings) :
    (c.compile s).2.Alike c where
  registers := rfl
  opening := rfl
  closing := rfl
  menu _ hr := foldl_compileRegister_menu h s (fun _ hr => hr) ([], c.memo) hr

theorem Distinct.compile_entries {c : Catalog} (h : c.Distinct) (s : Settings) :
    (c.compile s).1.entries = contributions s (fun r => (c.menu r).1) c.registers 0 := by
  rw [Catalog.compile_entries]
  exact contributions_congr (fun r hr count => by rw [(h.alike_compile s).menu r hr]) 0

/-- What one more register adds to the plan of those before it. -/
theorem Distinct.compile_entries_concat {c : Catalog} (h : c.Distinct) (s : Settings)
    {before after : List Register} {r : Register} (hr : c.registers = before ++ r :: after) :
    let entriesOf (rs : List Register) := (Catalog.compile { c with registers := rs } s).1.entries
    entriesOf (before ++ [r]) =
      entriesOf before ++ r.contribution s (c.menu r).1 (entriesOf before).length := by
  intro entriesOf
  have hnodup : ((before ++ r :: after).map Register.code).Nodup := hr ▸ h
  have hentries (rs : List Register) (hrs : (rs.map Register.code).Nodup) :
      entriesOf rs = contributions s (fun r => (c.menu r).1) rs 0 :=
    Distinct.compile_entries (c := { c with registers := rs }) hrs s
  rw [hentries (before ++ [r]) (hnodup.sublist (by simp)),
    hentries before (hnodup.sublist (by simp)), contributions_append, Nat.zero_add]
  simp [contributions]

/-- Alike catalogs compile settings to the same plan. -/
theorem Alike.compile_eq {c c' : Catalog} (hc : c.Alike c') (h : c'.Distinct) (s : Settings) :
    (c.compile s).1 = (c'.compile s).1 := by
  have hentries : (c.compile s).1.entries = (c'.compile s).1.entries := by
    rw [(hc.distinct h).compile_entries, h.compile_entries, hc.registers]
    exact contributions_congr (fun r hr count => by rw [hc.menu r hr]) 0
  calc (c.compile s).1 = ⟨(c.compile s).1.entries, c.opening, c.closing⟩ := rfl
    _ = ⟨(c'.compile s).1.entries, c'.opening, c'.closing⟩ := by
      rw [hentries, hc.opening, hc.closing]

end Catalog

end RegisterImage
