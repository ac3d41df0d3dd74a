import RegisterImage.Proofs.Settings.Chosen

/-!
# Well-formed settings

However settings come about, they speak only of registers of the catalog, their values are
canonical, and a chosen preset is one that the menu of its register offers.

## Main definitions

* `Settings.WellFormed` — what holds of settings at all times.
* `Settings.Blank.apply`, `Edit.canonical_apply` — what one edit keeps.
* `Change.wellFormed_run` — settings are well formed after any run of changes.
-/

namespace RegisterImage

/-- The codes are those of the catalog, values are canonical, and a chosen preset comes with a value
and is found in the menu. -/
structure Settings.WellFormed (s : Settings) (c : Catalog) : Prop where
  known : ∀ code, code ∈ s.values.codes ∨ code ∈ s.edited.codes ∨ code ∈ s.presets.codes →
    c.contains code
  canonical : ∀ code, ∀ v ∈ s.value? code, v ≠ "" ∧ canonicalHex v = v
  valued : ∀ code ∈ s.presets.codes, code ∈ s.values.codes
  offered : ∀ code, ∀ label ∈ s.preset? code, ∀ r ∈ c.registers, r.code = code →
    ∃ p, (c.menu r).1.preset? label = some p

/-! ## One edit -/

namespace Settings.Blank

variable {s s' : Settings} {code : String}

theorem congr (h : s.Blank code) (hvalue : s'.value? code = s.value? code)
    (hedited : s'.isEdited code = s.isEdited code) (hpreset : s'.preset? code = s.preset? code) :
    s'.Blank code :=
  ⟨hvalue.trans h.value?_eq, hedited.trans h.isEdited_eq, hpreset.trans h.preset?_eq⟩

theorem not_mem_codes (h : s.Blank code) :
    ¬(code ∈ s.values.codes ∨ code ∈ s.edited.codes ∨ code ∈ s.presets.codes) := by
  obtain ⟨hvalue, hedited, hpreset⟩ := h
  unfold value? at hvalue
  unfold isEdited CodeMap.contains at hedited
  unfold preset? at hpreset
  simp [CodeMap.mem_codes_iff, hvalue, hedited, hpreset]

/-- Nothing is ever stored for an unknown code. -/
theorem apply {state : Settings × Catalog} (h : state.1.Blank code)
    (hcode : state.2.register? code = none) (e : Edit) : (e.apply state).1.Blank code := by
  have hne {r : Register} (hr : state.2.register? r.code = some r) : code ≠ r.code := by
    rintro rfl
    cases hcode.symm.trans hr
  rcases Edit.settings_apply_cases state e with hsame | hempty | ⟨code', hreleased⟩ |
    ⟨r, v, hr, -, hstored⟩ | ⟨r, -, p, hr, -, hchosen⟩
  · rwa [hsame]
  · rw [hempty]
    exact ⟨rfl, rfl, rfl⟩
  · rw [hreleased]
    refine h.congr rfl rfl ?_
    rw [preset?_clearPreset, h.preset?_eq, ite_self]
  · rw [hstored]
    exact h.congr ((value?_store ..).trans (if_neg (hne hr)))
      ((isEdited_store ..).trans (if_neg (hne hr))) ((preset?_store ..).trans (if_neg (hne hr)))
  · rw [hchosen]
    exact h.congr ((value?_choose ..).trans (if_neg (hne hr)))
      ((isEdited_choose ..).trans (if_neg (hne hr))) ((preset?_choose ..).trans (if_neg (hne hr)))

end Settings.Blank

/-- Every value that an edit leaves is canonical. -/
theorem Edit.canonical_apply {state : Settings × Catalog} {e : Edit} (he : e.StoresCanonical)
    (h : ∀ code, ∀ v ∈ state.1.value? code, v ≠ "" ∧ canonicalHex v = v) :
    ∀ code, ∀ v ∈ (e.apply state).1.value? code, v ≠ "" ∧ canonicalHex v = v := by
  intro code v hv
  rcases settings_apply_cases state e with hsame | hempty | ⟨code', hreleased⟩ |
    ⟨r, v', -, rfl, hstored⟩ | ⟨r, -, p, -, -, hchosen⟩
  · exact h code v (hsame ▸ hv)
  · rw [hempty] at hv
    cases hv
  · rw [hreleased] at hv
    exact h code v hv
  · rw [hstored, Settings.value?_store] at hv
    split_ifs at hv with hcode hblank
    · cases hv
    · obtain rfl := Option.some.inj hv
      exact ⟨hblank, he⟩
    · exact h code v hv
  · rw [hchosen, Settings.value?_choose] at hv
    split_ifs at hv with hcode
    · obtain rfl := Option.some.inj hv
      exact ⟨Settings.hexText_ne_empty _, canonicalHex_hexText _⟩
    · exact h code v hv

/-! ## Runs -/

namespace Change

theorem blank_run_of_unknown {c : Catalog} {code : String} (h : c.register? code = none)
    (changes : List Change) : (run c changes).1.Blank code := by
  rw [run_eq_foldl]
  refine (List.foldlRecOn (motive := fun state : Settings × Catalog =>
    state.1.Blank code ∧ state.2.register? code = none) _ Edit.apply ⟨⟨rfl, rfl, rfl⟩, h⟩
    fun state hstate e _ => ⟨hstate.1.apply hstate.2 e, ?_⟩).1
  exact (Edit.register?_foldl state [e] code).trans hstate.2

theorem canonical_run (c : Catalog) (changes : List Change) :
    ∀ code, ∀ v ∈ (run c changes).1.value? code, v ≠ "" ∧ canonicalHex v = v := by
  rw [run_eq_foldl]
  exact List.foldlRecOn (motive := fun state : Settings × Catalog =>
    ∀ code, ∀ v ∈ state.1.value? code, v ≠ "" ∧ canonicalHex v = v) _ Edit.apply
    (fun _ _ hv => nomatch hv)
    fun _ hstate _ he => Edit.canonical_apply (storesCanonical_of_mem_flatMap he) hstate

theorem register?_run (c : Catalog) (changes : List Change) (code : String) :
    (run c changes).2.register? code = c.register? code := by
  rw [run_eq_foldl, Edit.register?_foldl]

/-- Settings are well formed after any run of changes, those that fail included. -/
theorem wellFormed_run (c : Catalog) (changes : List Change) :
    (run c changes).1.WellFormed (run c changes).2 := by
  have hknown {code : String} (h : ¬(run c changes).1.Blank code) :
      ∃ r, c.register? code = some r := by
    cases hfound : c.register? code with
    | none => exact absurd (blank_run_of_unknown hfound changes) h
    | some r => exact ⟨r, rfl⟩
  have hchosen {code label : String} (h : (run c changes).1.preset? code = some label) :
      ∃ r, c.register? code = some r := hknown fun hblank => by
    cases hblank.preset?_eq.symm.trans h
  constructor
  · intro code hcode
    obtain ⟨r, hr⟩ := hknown fun hblank => hblank.not_mem_codes hcode
    rw [Catalog.contains, register?_run, hr]
    rfl
  · exact canonical_run c changes
  · intro code hcode
    obtain ⟨label, hlabel⟩ := Option.isSome_iff_exists.1 (CodeMap.mem_codes_iff.1 hcode)
    obtain ⟨r, hr⟩ := hchosen hlabel
    obtain rfl := (Catalog.mem_of_register? hr).2
    obtain ⟨p, -, hvalue⟩ := (chosen_run hr changes).found label hlabel
    obtain ⟨v, hv, -⟩ := Option.bind_eq_some_iff.1 hvalue
    exact CodeMap.mem_codes_iff.2 (Option.isSome_of_eq_some hv)
  · intro code label hlabel r' _ hcode
    obtain ⟨r, hr⟩ := hchosen hlabel
    obtain rfl := (Catalog.mem_of_register? hr).2
    obtain ⟨p, hp, rfl, -⟩ := (chosen_run hr changes).exists_preset hcode (hcode ▸ hlabel)
    exact Menu.exists_preset?_of_mem hp

end Change

end RegisterImage
