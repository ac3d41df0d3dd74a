import RegisterImage.Proofs.Catalog.Coherent
import RegisterImage.Proofs.Plan.Due
import RegisterImage.Proofs.Settings.Edits
import RegisterImage.Proofs.Settings.ReadBack

/-!
# Chosen presets and the values they stand for

A preset is chosen by the value that is stored, and found again by its label. The label that is
kept always belongs to a preset with the stored value. Another preset is found under it exactly
when an earlier one in the menu has the same label.

## Main definitions

* `Settings.Chosen` — how the preset of a register came to be chosen.
* `Settings.Matches` — the chosen preset of a register has the stored value.
* `Register.LeadsBack` — labels lead back to the values they are chosen for.
* `Change.matches_iff` — chosen presets match after all runs when labels lead back.
-/

namespace RegisterImage

namespace Edit

/-- Edits that store canonical values only. -/
def StoresCanonical : Edit → Prop
  | store _ canonical => canonicalHex canonical = canonical
  | _ => True

end Edit

theorem Change.storesCanonical_of_mem_edits {c : Catalog} {change : Change} {e : Edit}
    (he : e ∈ change.edits c) : e.StoresCanonical := by
  have hvalues (h : change.SetsValues) : e.StoresCanonical := by
    have hset := h.setsValue e he
    cases e with
    | store code canonical => exact hset
    | clear | choose code label | release code => trivial
  cases change with
  | selectPreset code label | clearPreset code =>
    obtain rfl := List.mem_singleton.1 he
    trivial
  | _ => exact hvalues trivial

theorem Change.storesCanonical_of_mem_flatMap {c : Catalog} {changes : List Change} {e : Edit}
    (he : e ∈ changes.flatMap (edits c)) : e.StoresCanonical := by
  obtain ⟨change, -, he⟩ := List.mem_flatMap.1 he
  exact storesCanonical_of_mem_edits he

theorem readHex?_hexText_toNat (n : UInt64) : readHex? (hexText n.toNat) = some n := by
  rw [readHex?_hexText, word64?, if_pos n.toNat_lt, UInt64.ofNat_toNat]

/-! ## Menus of one register -/

namespace Menu

variable {m : Menu} {p : Preset}

theorem label_of_preset? {label : String} (h : m.preset? label = some p) : p.label = label := by
  simpa using List.find?_some h

theorem exists_preset?_of_mem (h : p ∈ m.presets) : ∃ q, m.preset? p.label = some q :=
  Option.isSome_iff_exists.1 (List.find?_isSome.2 ⟨p, h, decide_eq_true rfl⟩)

theorem value_of_presetFor? {n : UInt64} (h : m.presetFor? n = some p) : p.value = n := by
  simpa using List.find?_some h

end Menu

/-- Whoever has the code of a register shares its menu. -/
theorem Catalog.menu_of_remembered {c : Catalog} {r : Register} {m : Menu}
    (h : List.lookup r.code c.memo = some m) : (c.menu r).1 = m := by
  rw [menu, MenuMemo.lookup_fst, h, Option.getD_some]

namespace Settings

/-! ## What is chosen -/

/-- A chosen preset has the stored value. It was either found under its label or, for an edit, as
the first with its value. The menu it is from is remembered. -/
structure Chosen (s : Settings) (c : Catalog) (r : Register) (m : Menu) : Prop where
  menu_eq : (c.menu r).1 = m
  remembered : (s.preset? r.code).isSome → List.lookup r.code c.memo = some m
  found : ∀ label ∈ s.preset? r.code, ∃ p,
    (m.preset? label = some p ∨
      m.presetFor? p.value = some p ∧ p.label = label ∧ ¬hexEquals p.valueHex r.defaultHex) ∧
    (s.value? r.code).bind readHex? = some p.value

variable {s s' : Settings} {c : Catalog} {r : Register} {m : Menu}

theorem Chosen.of_preset?_eq_none (hmenu : (c.menu r).1 = m) (h : s.preset? r.code = none) :
    s.Chosen c r m where
  menu_eq := hmenu
  remembered hsome := by simp [h] at hsome
  found label hlabel := by simp [h] at hlabel

/-- Looking at menus leaves the chosen preset, and so do edits of other registers. -/
theorem Chosen.congr {c' : Catalog} (h : s.Chosen c r m) (hmenu : (c'.menu r).1 = (c.menu r).1)
    (hmemo : c'.memo.Extends c.memo) (hvalue : s'.value? r.code = s.value? r.code)
    (hpreset : s'.preset? r.code = s.preset? r.code) : s'.Chosen c' r m where
  menu_eq := hmenu.trans h.menu_eq
  remembered hsome := hmemo _ _ (h.remembered (hpreset ▸ hsome))
  found label hlabel := hvalue ▸ h.found label (hpreset ▸ hlabel)

theorem editedNumber?_eq_some_iff {v : String} {n : UInt64} : editedNumber? r v = some n ↔
    ¬hexEquals v r.defaultHex ∧ v ≠ "" ∧ readHex? v = some n := by
  unfold editedNumber?
  by_cases hequal : hexEquals v r.defaultHex <;> by_cases hempty : v = "" <;> simp [hequal, hempty]

theorem snd_store_cases (s : Settings) (c : Catalog) (r : Register) (v : String) :
    (s.store c r v).2 = c ∧ editedNumber? r v = none ∨ (s.store c r v).2 = (c.menu r).2 := by
  unfold store
  cases editedNumber? r v with
  | none => exact .inl ⟨rfl, rfl⟩
  | some n => exact .inr rfl

theorem Chosen.remember (h : s.Chosen c r m) : List.lookup r.code (c.menu r).2.memo = some m := by
  have hlookup := c.memo.lookup_code r r.code
  rw [if_pos rfl] at hlookup
  exact hlookup.trans (congrArg some h.menu_eq)

theorem Chosen.store (h : s.Chosen c r m) {v : String} (hv : canonicalHex v = v) :
    (s.store c r v).1.Chosen (s.store c r v).2 r m := by
  have hpreset : (s.store c r v).1.preset? r.code = labelFor? r m v := by
    rw [preset?_store, if_pos rfl, h.menu_eq]
  rcases s.snd_store_cases c r v with ⟨hsame, hnumber⟩ | hmenu
  · rw [hsame]
    exact .of_preset?_eq_none h.menu_eq (hpreset.trans (by rw [labelFor?, hnumber]; rfl))
  · rw [hmenu]
    refine ⟨Catalog.menu_of_remembered h.remember, fun _ => h.remember, fun label hlabel => ?_⟩
    obtain ⟨n, hnumber, hlabel⟩ := Option.bind_eq_some_iff.1 (hpreset.symm.trans hlabel)
    obtain ⟨p, hp, rfl⟩ := Option.map_eq_some_iff.1 hlabel
    obtain ⟨hedited, hne, hread⟩ := editedNumber?_eq_some_iff.1 hnumber
    obtain rfl := Menu.value_of_presetFor? hp
    obtain rfl := eq_hexText_of_readHex? hv hread
    refine ⟨p, .inr ⟨hp, rfl, hedited⟩, ?_⟩
    rw [value?_store, if_pos rfl, if_neg hne]
    exact hread

theorem Chosen.choose (h : s.Chosen c r m) {label : String} {p : Preset}
    (hp : m.preset? label = some p) : (s.choose r p).Chosen (c.menu r).2 r m where
  menu_eq := Catalog.menu_of_remembered h.remember
  remembered _ := h.remember
  found label' hlabel := by
    rw [preset?_choose, if_pos rfl, Option.mem_some_iff, Menu.label_of_preset? hp] at hlabel
    subst hlabel
    refine ⟨p, .inl hp, ?_⟩
    rw [value?_choose, if_pos rfl, Option.bind_some, Preset.valueHex, readHex?_hexText_toNat]

/-- Looking at the menu of a register with another code. -/
theorem Chosen.menu (h : s.Chosen c r m) {r' : Register} (hcode : r.code ≠ r'.code) :
    s.Chosen (c.menu r').2 r m :=
  h.congr (c.memo.lookup_lookup fun heq => absurd heq hcode) (c.memo.extends_lookup r') rfl rfl

end Settings

/-- An edit, of whichever register, keeps what is known about a chosen preset. -/
theorem Settings.Chosen.apply {s : Settings} {c : Catalog} {r : Register} {m : Menu}
    (h : s.Chosen c r m) (hr : c.register? r.code = some r) {e : Edit} (he : e.StoresCanonical) :
    (e.apply (s, c)).1.Chosen (e.apply (s, c)).2 r m := by
  have hself {code : String} {r' : Register} (hr' : c.register? code = some r')
      (hcode : r'.code = r.code) : r' = r := by
    rw [← (Catalog.mem_of_register? hr').2, hcode, hr] at hr'
    exact (Option.some.inj hr').symm
  cases e with
  | clear => exact .of_preset?_eq_none h.menu_eq rfl
  | release code =>
    by_cases hcode : r.code = code
    · exact .of_preset?_eq_none h.menu_eq ((s.preset?_clearPreset ..).trans (if_pos hcode))
    · exact h.congr rfl (.refl _) rfl ((s.preset?_clearPreset ..).trans (if_neg hcode))
  | store code v =>
    cases hfound : c.register? code with
    | none =>
      rw [Edit.apply_store_of_unknown hfound]
      exact h
    | some r' =>
      rw [Edit.apply_store_of_register? hfound]
      by_cases hcode : r'.code = r.code
      · obtain rfl := hself hfound hcode
        exact h.store he
      · have hcode := Ne.symm hcode
        have hvalue := (s.value?_store c r' v r.code).trans (if_neg hcode)
        have hpreset := (s.preset?_store c r' v r.code).trans (if_neg hcode)
        rcases s.snd_store_cases c r' v with ⟨hsame, -⟩ | hmenu
        · rw [hsame]
          exact h.congr rfl (.refl _) hvalue hpreset
        · rw [hmenu]
          exact (h.menu hcode).congr rfl (.refl _) hvalue hpreset
  | choose code label =>
    cases hfound : c.register? code with
    | none =>
      rw [Edit.apply_choose_of_unknown hfound]
      exact h
    | some r' =>
      rw [Edit.apply_choose_of_register? hfound]
      by_cases hcode : r'.code = r.code
      · obtain rfl := hself hfound hcode
        cases hp : (c.menu r').1.preset? label with
        | none =>
          exact ⟨Catalog.menu_of_remembered h.remember, fun _ => h.remember, h.found⟩
        | some p => exact h.choose (h.menu_eq ▸ hp)
      · have hcode := Ne.symm hcode
        cases (c.menu r').1.preset? label with
        | none => exact h.menu hcode
        | some p =>
          exact (h.menu hcode).congr rfl (.refl _) ((s.value?_choose ..).trans (if_neg hcode))
            ((s.preset?_choose ..).trans (if_neg hcode))

/-! ## Runs -/

/-- A label under which the first preset with a value is kept leads to a preset with that value, for
the values that are edits. -/
def Register.LeadsBack (r : Register) (m : Menu) : Prop :=
  ∀ n p, m.presetFor? n = some p → ¬hexEquals (hexText n.toNat) r.defaultHex →
    ∀ q, m.preset? p.label = some q → q.value = n

/-- The preset that is found under the chosen label has the stored value. -/
def Settings.Matches (s : Settings) (c : Catalog) (r : Register) : Prop :=
  ∀ label ∈ s.preset? r.code, ∃ p, (c.menu r).1.preset? label = some p ∧
    (s.value? r.code).bind readHex? = some p.value

/-- Then the preset that is compiled has the value that is compiled. -/
theorem Settings.Matches.value_eq {s : Settings} {c : Catalog} {r : Register} (h : s.Matches c r)
    {k : Candidate} (hk : r.candidate? (s.value? r.code) (s.preset? r.code) = some k) {p : Preset}
    (hp : k.preset? (c.menu r).1 = some p) : p.value = k.value := by
  obtain ⟨e, address, value, size, heffective, -, hvalue, -, -, rfl⟩ :=
    (r.candidate?_eq_some_iff _ _ k).1 hk
  unfold Candidate.preset? at hp
  split at hp
  · obtain ⟨label, hlabel, hp⟩ := Option.bind_eq_some_iff.1 hp
    obtain ⟨q, hq, hread⟩ := h label hlabel
    obtain rfl := Option.some.inj (hp.symm.trans hq)
    obtain ⟨v, hv, hread⟩ := Option.bind_eq_some_iff.1 hread
    have hne : v ≠ "" := by
      rintro rfl
      cases hread
    rw [hv] at heffective
    cases heffective with
    | stored _ => exact (Option.some.inj (hvalue.symm.trans hread)).symm
    | initial hempty _ | zero hempty _ _ => exact absurd (hempty v rfl) hne
  · cases hp

namespace Settings.Chosen

variable {s : Settings} {c : Catalog} {r r' : Register} {m : Menu}

theorem exists_preset (h : s.Chosen c r m) (hcode : r'.code = r.code) {label : String}
    (hlabel : s.preset? r'.code = some label) : ∃ p ∈ (c.menu r').1.presets, p.label = label ∧
      (s.value? r'.code).bind readHex? = some p.value := by
  rw [hcode] at hlabel ⊢
  have hmenu : (c.menu r').1 = m :=
    Catalog.menu_of_remembered (hcode ▸ h.remembered (Option.isSome_of_eq_some hlabel))
  obtain ⟨p, hp | ⟨hp, hpl, -⟩, hvalue⟩ := h.found label hlabel
  · exact ⟨p, hmenu ▸ List.mem_of_find?_eq_some hp, Menu.label_of_preset? hp, hvalue⟩
  · exact ⟨p, hmenu ▸ List.mem_of_find?_eq_some hp, hpl, hvalue⟩

theorem matches_of_leadsBack (h : s.Chosen c r m) (hm : r.LeadsBack m) (hcode : r'.code = r.code) :
    s.Matches c r' := by
  intro label hlabel
  rw [hcode] at hlabel ⊢
  have hmenu : (c.menu r').1 = m :=
    Catalog.menu_of_remembered (hcode ▸ h.remembered (Option.isSome_of_eq_some hlabel))
  obtain ⟨p, hp | ⟨hp, rfl, hedited⟩, hvalue⟩ := h.found label hlabel
  · exact ⟨p, hmenu ▸ hp, hvalue⟩
  · obtain ⟨q, hq⟩ := Menu.exists_preset?_of_mem (List.mem_of_find?_eq_some hp)
    exact ⟨q, hmenu ▸ hq, (hm p.value p hp hedited q hq).symm ▸ hvalue⟩

end Settings.Chosen

namespace Change

variable {c : Catalog} {r : Register}

theorem chosen_run (hr : c.register? r.code = some r) (changes : List Change) :
    (run c changes).1.Chosen (run c changes).2 r (c.menu r).1 := by
  have hedits : ∀ e ∈ changes.flatMap (edits c), e.StoresCanonical := fun _ =>
    storesCanonical_of_mem_flatMap
  rw [run_eq_foldl]
  generalize changes.flatMap (edits c) = es at hedits
  induction es using List.reverseRecOn with
  | nil => exact .of_preset?_eq_none rfl rfl
  | append_singleton es e ih =>
    have hregister : (es.foldl Edit.apply (.empty, c)).2.register? r.code = some r :=
      (Edit.register?_foldl (.empty, c) es r.code).trans hr
    rw [List.foldl_append]
    exact (ih fun e he => hedits e (List.mem_append_left _ he)).apply hregister
      (hedits e (by simp))

/-- The label that is kept for a code always belongs to a preset with the stored value. It leads to
such a preset after every run of changes exactly when labels lead back. -/
theorem matches_iff (hr : c.register? r.code = some r) :
    (∀ changes, ∀ r' ∈ c.registers, r'.code = r.code →
      ∀ label, (run c changes).1.preset? r'.code = some label →
        ∃ p ∈ ((run c changes).2.menu r').1.presets, p.label = label ∧
          ((run c changes).1.value? r'.code).bind readHex? = some p.value) ∧
    ((∀ changes, ∀ r' ∈ c.registers, r'.code = r.code →
        (run c changes).1.Matches (run c changes).2 r') ↔
      r.LeadsBack (c.menu r).1) := by
  refine ⟨fun changes r' _ hcode label hlabel => (chosen_run hr changes).exists_preset hcode hlabel,
    fun hmatches n p hp hedited q hq => ?_,
    fun hm changes r' _ hcode => (chosen_run hr changes).matches_of_leadsBack hm hcode⟩
  -- The value itself is stored.
  let value := hexText n.toNat
  have hrun : run c [setValue r.code value] = Settings.empty.store c r value := by
    rw [run, List.foldl_cons, List.foldl_nil, apply_setValue_eq, canonicalHex_hexText,
      Edit.apply_store_of_register? hr]
  have hmatch := hmatches [setValue r.code value] r (Catalog.mem_of_register? hr).1 rfl
  have hlabel : Settings.labelFor? r (c.menu r).1 value = some p.label := by
    have hnumber : Settings.editedNumber? r value = some n := Settings.editedNumber?_eq_some_iff.2
      ⟨hedited, Settings.hexText_ne_empty _, readHex?_hexText_toNat n⟩
    rw [Settings.labelFor?, hnumber, Option.bind_some, hp, Option.map_some]
  have hmenu := (chosen_run hr [setValue r.code value]).menu_eq
  rw [Settings.Matches, hmenu, hrun, Settings.preset?_store, if_pos rfl, hlabel] at hmatch
  obtain ⟨q', hq', hvalue⟩ := hmatch p.label rfl
  obtain rfl := Option.some.inj (hq.symm.trans hq')
  rw [Settings.value?_store, if_pos rfl, if_neg (Settings.hexText_ne_empty _), Option.bind_some,
    readHex?_hexText_toNat] at hvalue
  exact (Option.some.inj hvalue).symm

theorem matches_iff_of_repeated_default :
    let r : Register := ⟨"MODE", none, none, .text "0x400", some (.int 1), some (.text "0x0"),
      none, false, .plain, none, none, some [
        .obj [("value", .str "0x1"), ("label", .str "Warm")], .obj [("value", .str "02")],
        .obj [("value", .str "0x0"), ("label", .str "Warm")]], none⟩
    let c : Catalog := ⟨.null, [r], none, none, []⟩
    c.register? r.code = some r ∧ r.LeadsBack (c.menu r).1 ∧
      (∀ changes, ∀ r' ∈ c.registers, r'.code = r.code →
        (run c changes).1.Matches (run c changes).2 r') ∧
      (run c [.setValue "MODE" "2"]).1.preset? "MODE" = some "0x2" := by
  intro r c
  let warm : Preset := ⟨1, "Warm", none, none, false⟩
  let two : Preset := ⟨2, "0x2", none, none, false⟩
  let zero : Preset := ⟨0, "Warm", none, none, false⟩
  have hr : c.register? r.code = some r := rfl
  have hpresets : (c.menu r).1.presets = [warm, two, zero] := by decide
  have hm : r.LeadsBack (c.menu r).1 := by
    intro n p hp hedited q hq
    obtain rfl := Menu.value_of_presetFor? hp
    have hmem : p = warm ∨ p = two ∨ p = zero := by
      simpa [hpresets] using List.mem_of_find?_eq_some hp
    rw [Menu.preset?, hpresets] at hq
    rcases hmem with rfl | rfl | rfl
    · obtain rfl : warm = q := Option.some.inj hq
      rfl
    · obtain rfl : two = q := Option.some.inj hq
      rfl
    · have hdefault : hexEquals (hexText zero.value.toNat) r.defaultHex = true := by cbv
      exact absurd hdefault hedited
  exact ⟨hr, hm, (matches_iff hr).2.2 hm, by decide⟩

/-- A value is stored that has no writes of its own. Under its label another preset is found, and
the writes of that one are compiled. -/
theorem matches_fails_of_repeated_label :
    let document : Json := .obj [("groups", .arr [.obj [("code", .str "g"), ("items", .arr [
      .obj [("code", .str "R"), ("address", .str "0x400"), ("size_bytes", .int 1),
        ("default", .str "0x0"), ("byte_fields", .arr [
          .obj [("value", .str "0x1"), ("label", .str "A"), ("writes", .arr [
            .obj [("address", .str "0x404"), ("value", .str "0x9")]])],
          .obj [("value", .str "0x2"), ("label", .str "A")]])]])]])]
    ∃ c r, Catalog.ofDocument document = .ok c ∧ c.register? "R" = some r ∧
      let state := run c [.setValue "R" "2"]
      state.1.value? "R" = some "0x2" ∧ ¬state.1.Matches state.2 r ∧
        (state.2.compile state.1).1.operations = [⟨0, 0x404, 9, 1⟩] := by
  intro document
  let r : Register := ⟨"R", none, none, .text "0x400", some (.int 1), some (.text "0x0"), none,
    false, .plain, none, none, some [
      .obj [("value", .str "0x1"), ("label", .str "A"), ("writes", .arr [
        .obj [("address", .str "0x404"), ("value", .str "0x9")]])],
      .obj [("value", .str "0x2"), ("label", .str "A")]], none⟩
  let c : Catalog := ⟨document, [r], none, none, []⟩
  have hc : Catalog.ofDocument document = .ok c := by cbv
  refine ⟨c, r, hc, rfl, by decide, fun hmatches => ?_, by decide⟩
  have hpreset : (run c [.setValue "R" "2"]).1.preset? r.code = some "A" := by decide
  obtain ⟨p, hp, hvalue⟩ := hmatches "A" hpreset
  have hother : (((run c [.setValue "R" "2"]).2.menu r).1.preset? "A").map (·.value) = some 1 := by
    decide
  have hstored : ((run c [.setValue "R" "2"]).1.value? r.code).bind readHex? = some 2 := by decide
  rw [hp, Option.map_some, ← hvalue, hstored] at hother
  exact absurd hother (by decide)

end Change

end RegisterImage
