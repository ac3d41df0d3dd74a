import RegisterImage.Proofs.Settings.Changes

/-!
# Changes as edits

Every change to settings comes down to edits of four kinds: everything is cleared, a canonical
value is stored for a register, a preset is chosen for it, or its preset is released. What holds
after every edit holds after every run of changes.

## Main definitions

* `Edit`, `Edit.apply` — the edits there are, and the settings after one.
* `Change.edits` — the edits of a change.
* `Change.apply_eq_foldl`, `Change.run_eq_foldl` — a change and a run are their edits in order.
* `Change.consistent_run` — settings are consistent after any run of changes that set values.
-/

namespace RegisterImage

namespace Settings

/-! ## Choosing and releasing presets -/

section Choose

variable (s : Settings) (r : Register) (p : Preset) (code code' : String)

theorem value?_choose : (s.choose r p).value? code =
    if code = r.code then some p.valueHex else s.value? code :=
  CodeMap.get?_insert ..

theorem isEdited_choose : (s.choose r p).isEdited code =
    if code = r.code then !isDefaultPreset r p else s.isEdited code := by
  unfold choose isEdited CodeMap.contains
  by_cases hcode : code = r.code <;> by_cases hdefault : isDefaultPreset r p <;> simp_all

theorem preset?_choose : (s.choose r p).preset? code =
    if code = r.code then some p.label else s.preset? code :=
  CodeMap.get?_insert ..

theorem preset?_clearPreset : (s.clearPreset code').preset? code =
    if code = code' then none else s.preset? code :=
  CodeMap.get?_erase ..

end Choose

end Settings

/-! ## Edits -/

inductive Edit where
  | clear
  | store (code canonical : String)
  | choose (code label : String)
  | release (code : String)
  deriving DecidableEq, Repr

namespace Edit

/-- The settings after an edit, and the catalog with the menus that were looked at. An edit of an
unknown register, or with an unknown preset, changes no settings. -/
def apply (state : Settings × Catalog) : Edit → Settings × Catalog
  | clear => (.empty, state.2)
  | store code canonical =>
    match state.2.register? code with
    | some r => state.1.store state.2 r canonical
    | none => state
  | choose code label =>
    match state.2.register? code with
    | some r =>
      (((state.2.menu r).1.preset? label).elim state.1 (state.1.choose r), (state.2.menu r).2)
    | none => state
  | release code => (state.1.clearPreset code, state.2)

/-- Edits that choose presets by their values alone, which are canonical. -/
def SetsValue : Edit → Prop
  | clear => True
  | store _ canonical => canonicalHex canonical = canonical
  | choose _ _ | release _ => False

variable {state : Settings × Catalog} {code : String}

theorem apply_store_of_register? {r : Register} (h : state.2.register? code = some r)
    (canonical : String) :
    apply state (store code canonical) = state.1.store state.2 r canonical := by
  simp only [apply, h]

theorem apply_store_of_unknown (h : state.2.register? code = none) (canonical : String) :
    apply state (store code canonical) = state := by
  simp only [apply, h]

theorem apply_choose_of_register? {r : Register} (h : state.2.register? code = some r)
    (label : String) : apply state (choose code label) =
      (((state.2.menu r).1.preset? label).elim state.1 (state.1.choose r),
        (state.2.menu r).2) := by
  simp only [apply, h]

theorem apply_choose_of_unknown (h : state.2.register? code = none) (label : String) :
    apply state (choose code label) = state := by
  simp only [apply, h]

/-- All that an edit does to settings, the edits that fail included. -/
theorem settings_apply_cases (state : Settings × Catalog) (e : Edit) :
    (apply state e).1 = state.1 ∨ (apply state e).1 = .empty ∨
      (∃ code, (apply state e).1 = state.1.clearPreset code) ∨
      (∃ r canonical, state.2.register? r.code = some r ∧ e = store r.code canonical ∧
        (apply state e).1 = (state.1.store state.2 r canonical).1) ∨
      ∃ r label p, state.2.register? r.code = some r ∧
        (state.2.menu r).1.preset? label = some p ∧ (apply state e).1 = state.1.choose r p := by
  cases e with
  | clear => exact .inr (.inl rfl)
  | release code => exact .inr (.inr (.inl ⟨code, rfl⟩))
  | store code canonical =>
    cases hfound : state.2.register? code with
    | none => exact .inl (by rw [apply_store_of_unknown hfound])
    | some r =>
      obtain rfl := (Catalog.mem_of_register? hfound).2
      refine .inr (.inr (.inr (.inl ⟨r, canonical, hfound, rfl, ?_⟩)))
      rw [apply_store_of_register? hfound]
  | choose code label =>
    cases hfound : state.2.register? code with
    | none => exact .inl (by rw [apply_choose_of_unknown hfound])
    | some r =>
      obtain rfl := (Catalog.mem_of_register? hfound).2
      rw [apply_choose_of_register? hfound]
      cases hp : (state.2.menu r).1.preset? label with
      | none => exact .inl rfl
      | some p => exact .inr (.inr (.inr (.inr ⟨r, label, p, hfound, hp, rfl⟩)))

/-- All that an edit does to the catalog is to look at the menu of the register with some code. -/
theorem catalog_apply_cases (state : Settings × Catalog) (e : Edit) :
    (apply state e).2 = state.2 ∨
      ∃ code r, state.2.register? code = some r ∧ (apply state e).2 = (state.2.menu r).2 := by
  cases e with
  | clear | release code => exact .inl rfl
  | store code canonical =>
    cases hfound : state.2.register? code with
    | none => exact .inl (by rw [apply_store_of_unknown hfound])
    | some r =>
      rw [apply_store_of_register? hfound, Settings.store]
      cases Settings.editedNumber? r canonical with
      | none => exact .inl rfl
      | some n => exact .inr ⟨code, r, hfound, rfl⟩
  | choose code label =>
    cases hfound : state.2.register? code with
    | none => exact .inl (by rw [apply_choose_of_unknown hfound])
    | some r =>
      rw [apply_choose_of_register? hfound]
      exact .inr ⟨code, r, hfound, rfl⟩

theorem registers_apply (state : Settings × Catalog) (e : Edit) :
    (apply state e).2.registers = state.2.registers := by
  rcases catalog_apply_cases state e with hsame | ⟨_, r, -, hmenu⟩
  · rw [hsame]
  · rw [hmenu]
    rfl

theorem registers_foldl (state : Settings × Catalog) (es : List Edit) :
    (es.foldl apply state).2.registers = state.2.registers :=
  List.foldlRecOn (motive := fun later => later.2.registers = state.2.registers) es apply rfl
    fun later hlater e _ => (registers_apply later e).trans hlater

theorem register?_foldl (state : Settings × Catalog) (es : List Edit) (code : String) :
    (es.foldl apply state).2.register? code = state.2.register? code := by
  rw [Catalog.register?, Catalog.register?, registers_foldl]

/-- No edit changes the menu of a register that is found by its code, whatever codes are
repeated. -/
theorem menu_foldl (state : Settings × Catalog) {r : Register}
    (hr : state.2.register? r.code = some r) (es : List Edit) :
    ((es.foldl apply state).2.menu r).1 = (state.2.menu r).1 := by
  induction es using List.reverseRecOn with
  | nil => rfl
  | append_singleton es e ih =>
    rw [List.foldl_append, List.foldl_cons, List.foldl_nil, ← ih]
    generalize hlater : es.foldl apply state = later
    have hlater : later.2.register? r.code = some r :=
      hlater ▸ (register?_foldl state es r.code).trans hr
    rcases catalog_apply_cases later e with hsame | ⟨code, r', hr', hmenu⟩
    · rw [hsame]
    · rw [hmenu]
      refine later.2.memo.lookup_lookup fun hcode => ?_
      rw [hcode, (Catalog.mem_of_register? hr').2, hr'] at hlater
      exact (Option.some.inj hlater).symm

/-- In a catalog without repeated codes, no edit changes what a menu is. -/
theorem alike_apply (h : state.2.Distinct) (e : Edit) : (apply state e).2.Alike state.2 := by
  rcases catalog_apply_cases state e with hsame | ⟨_, r, hr, hmenu⟩
  · rw [hsame]
    exact .refl _
  · rw [hmenu]
    exact h.alike_menu (Catalog.mem_of_register? hr).1

theorem alike_foldl (state : Settings × Catalog) (h : state.2.Distinct) (es : List Edit) :
    (es.foldl apply state).2.Alike state.2 :=
  List.foldlRecOn (motive := fun later => later.2.Alike state.2) es apply (.refl _)
    fun _ hlater e _ => (alike_apply (hlater.distinct h) e).trans hlater

end Edit

namespace Change

/-! ## Edits of changes -/

/-- The values of a list that are stored: those with a hexadecimal digit. -/
def stores (values : List (String × Scalar)) : List Edit :=
  (values.filter fun e => e.2.canonical ≠ "").map fun e => .store e.1 e.2.canonical

def edits (c : Catalog) : Change → List Edit
  | setValue code text => [.store code (canonicalHex text)]
  | selectPreset code label => [.choose code label]
  | clearPreset code => [.release code]
  | applyValues values => .clear :: stores values
  | applyWrites writes =>
    let values := (Settings.writtenValues c writes).entries
    if values.isEmpty then [] else .clear :: stores values
  | reset => [.clear]

theorem edits_congr {c c' : Catalog} (h : c'.registers = c.registers) (change : Change) :
    change.edits c' = change.edits c := by
  cases change with
  | applyWrites writes =>
    have hcollect : Settings.collect c' = Settings.collect c := by
      funext found w
      rw [Settings.collect, Settings.collect, Catalog.matching, Catalog.matching, h]
    rw [edits, edits, Settings.writtenValues, Settings.writtenValues, hcollect]
  | _ => rfl

theorem setsValue_of_mem_stores {values : List (String × Scalar)} {e : Edit}
    (he : e ∈ stores values) : e.SetsValue := by
  obtain ⟨entry, -, rfl⟩ := List.mem_map.1 he
  exact Settings.canonicalHex_canonical entry.2

theorem SetsValues.setsValue {c : Catalog} {change : Change} (h : change.SetsValues) :
    ∀ e ∈ change.edits c, e.SetsValue := by
  have hvalues (values : List (String × Scalar)) :
      ∀ e ∈ Edit.clear :: stores values, e.SetsValue :=
    List.forall_mem_cons.2 ⟨trivial, fun _ => setsValue_of_mem_stores⟩
  cases change with
  | setValue code text => exact List.forall_mem_singleton.2 (canonicalHex_canonicalHex text)
  | reset => exact List.forall_mem_singleton.2 trivial
  | selectPreset code label | clearPreset code => exact h.elim
  | applyValues values => exact hvalues values
  | applyWrites writes =>
    unfold edits
    simp only
    split
    · exact fun _ he => absurd he List.not_mem_nil
    · exact hvalues _

theorem stores_cons (entry : String × Scalar) (values : List (String × Scalar)) :
    stores (entry :: values) =
      if entry.2.canonical = "" then stores values
      else .store entry.1 entry.2.canonical :: stores values := by
  unfold stores
  by_cases h : entry.2.canonical = "" <;> simp [h]

/-- By induction on the values. -/
theorem foldl_applyValue_eq (values : List (String × Scalar)) (s : Settings) (c : Catalog)
    (summary : Settings.ApplySummary) :
    ((values.foldl Settings.applyValue (s, c, summary)).1,
      (values.foldl Settings.applyValue (s, c, summary)).2.1) =
      (stores values).foldl Edit.apply (s, c) := by
  induction values generalizing s c summary with
  | nil => rfl
  | cons entry values ih =>
    rw [List.foldl_cons, stores_cons]
    rcases Settings.applyValue_cases s c summary entry with ⟨hreason, hskip⟩ |
      ⟨r, hfound, hne, happly⟩
    · rw [hskip, ih]
      by_cases hempty : entry.2.canonical = ""
      · rw [if_pos hempty]
      · have hunknown : c.register? entry.1 = none := hreason.resolve_right hempty
        rw [if_neg hempty, List.foldl_cons, Edit.apply_store_of_unknown hunknown]
    · rw [happly, ih, if_neg hne, List.foldl_cons, Edit.apply_store_of_register? hfound]

theorem apply_setValue_eq (s : Settings) (c : Catalog) (code text : String) :
    apply (s, c) (setValue code text) = Edit.apply (s, c) (.store code (canonicalHex text)) := by
  cases hfound : c.register? code with
  | none =>
    rw [Edit.apply_store_of_unknown hfound]
    simp only [apply, Settings.setValue, Catalog.find, hfound]
    rfl
  | some r =>
    rw [Edit.apply_store_of_register? hfound]
    simp only [apply, Settings.setValue, Catalog.find, hfound, bind, Except.bind, pure,
      Except.pure]

theorem apply_selectPreset_eq (s : Settings) (c : Catalog) (code label : String) :
    apply (s, c) (selectPreset code label) = Edit.apply (s, c) (.choose code label) := by
  cases hfound : c.register? code with
  | none =>
    rw [Edit.apply_choose_of_unknown hfound]
    simp only [apply, Settings.selectPreset, Catalog.find, hfound]
  | some r =>
    rw [Edit.apply_choose_of_register? hfound]
    simp only [apply, Settings.selectPreset, Catalog.find, hfound]
    cases (c.menu r).1.preset? label <;> rfl

theorem apply_eq_foldl (state : Settings × Catalog) (change : Change) :
    apply state change = (change.edits state.2).foldl Edit.apply state := by
  obtain ⟨s, c⟩ := state
  cases change with
  | setValue code text => exact apply_setValue_eq s c code text
  | selectPreset code label => exact apply_selectPreset_eq s c code label
  | clearPreset code | reset => rfl
  | applyValues values => exact foldl_applyValue_eq values .empty c ⟨0, 0⟩
  | applyWrites writes =>
    simp only [apply, Settings.applyWrites, edits]
    split
    · rfl
    · exact foldl_applyValue_eq _ .empty c ⟨0, 0⟩

/-- By induction on the changes: none of them changes which registers there are. -/
theorem foldl_apply_eq {c : Catalog} {state : Settings × Catalog}
    (h : state.2.registers = c.registers) (changes : List Change) :
    changes.foldl apply state = (changes.flatMap (edits c)).foldl Edit.apply state := by
  induction changes generalizing state with
  | nil => rfl
  | cons change changes ih =>
    have hregisters := (Edit.registers_foldl state (change.edits c)).trans h
    rw [List.foldl_cons, apply_eq_foldl, edits_congr h, ih hregisters, List.flatMap_cons,
      List.foldl_append]

theorem alike_apply {s : Settings} {c : Catalog} (h : c.Distinct) (change : Change) :
    (apply (s, c) change).2.Alike c := by
  rw [apply_eq_foldl]
  exact Edit.alike_foldl (s, c) h _

theorem run_eq_foldl (c : Catalog) (changes : List Change) :
    run c changes = (changes.flatMap (edits c)).foldl Edit.apply (.empty, c) :=
  foldl_apply_eq rfl changes

theorem alike_run {c : Catalog} (h : c.Distinct) (changes : List Change) :
    (run c changes).2.Alike c := by
  rw [run_eq_foldl]
  exact Edit.alike_foldl (.empty, c) h _

theorem setsValue_of_mem_edits {c : Catalog} {changes : List Change}
    (h : ∀ change ∈ changes, change.SetsValues) :
    ∀ e ∈ changes.flatMap (edits c), e.SetsValue := by
  intro e he
  obtain ⟨change, hchange, he⟩ := List.mem_flatMap.1 he
  exact (h change hchange).setsValue e he

end Change

/-! ## Consistent settings -/

theorem Settings.Consistent.edit {s : Settings} {c c' : Catalog} (hs : s.Consistent c)
    (h : c.Distinct) (hc : c'.Alike c) {e : Edit} (he : e.SetsValue) :
    (e.apply (s, c')).1.Consistent c := by
  cases e with
  | clear => exact consistent_empty c
  | store code canonical =>
    cases hfound : c'.register? code with
    | none =>
      rw [Edit.apply_store_of_unknown hfound]
      exact hs
    | some r =>
      rw [Edit.apply_store_of_register? hfound]
      exact hs.store h hc (hc.registers ▸ (Catalog.mem_of_register? hfound).1) he
  | choose code label | release code => exact he.elim

theorem Settings.Consistent.foldl_edit {s : Settings} {c c' : Catalog} (hs : s.Consistent c)
    (h : c.Distinct) (hc : c'.Alike c) {es : List Edit} (hes : ∀ e ∈ es, e.SetsValue) :
    (es.foldl Edit.apply (s, c')).1.Consistent c ∧ (es.foldl Edit.apply (s, c')).2.Alike c :=
  List.foldlRecOn (motive := fun state => state.1.Consistent c ∧ state.2.Alike c) es Edit.apply
    ⟨hs, hc⟩ fun _ hstate e he => ⟨hstate.1.edit h hstate.2 (hes e he),
      (Edit.alike_apply (hstate.2.distinct h) e).trans hstate.2⟩

namespace Change

theorem consistent_apply {s : Settings} {c c' : Catalog} (hs : s.Consistent c)
    (h : c.Distinct) (hc : c'.Alike c) {change : Change} (hchange : change.SetsValues) :
    (apply (s, c') change).1.Consistent c ∧ (apply (s, c') change).2.Alike c := by
  rw [apply_eq_foldl]
  exact hs.foldl_edit h hc hchange.setsValue

/-- However values were entered, what is stored is of one piece. -/
theorem consistent_run {c : Catalog} (h : c.Distinct) {changes : List Change}
    (hchanges : ∀ change ∈ changes, change.SetsValues) :
    (run c changes).1.Consistent c ∧ (run c changes).2.Alike c := by
  rw [run_eq_foldl]
  exact (Settings.consistent_empty c).foldl_edit h (.refl c) (setsValue_of_mem_edits hchanges)

end Change

end RegisterImage
