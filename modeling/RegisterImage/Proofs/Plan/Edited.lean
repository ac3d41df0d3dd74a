import RegisterImage.Profile
import RegisterImage.Proofs.Plan.Due
import RegisterImage.Proofs.Settings.Agree
import RegisterImage.Proofs.Settings.Edits

/-!
# What is written is an edit

A register that is not required is written only when it is marked as edited. The one exception
is a preset that writes the default of the register although its own value is another: choosing
it takes the mark away, and the value is written all the same.

## Main definitions

* `Preset.Masks` — a preset that is no edit of a register but changes its value.
* `Settings.Explained` — what marks, values and presets of a register have to do with each other.
* `Change.explained_run` — every run of changes keeps every register explained.
* `Change.isEdited_of_written` — a register that adds to a plan is exported as an edit.
-/

namespace RegisterImage

/-- A preset whose writes include the default of a register while its value is not the default. -/
def Preset.Masks (p : Preset) (r : Register) : Prop :=
  Settings.isDefaultPreset r p = true ∧ ¬hexEquals p.valueHex r.defaultHex

theorem Register.Effective.stored_of_changed {r : Register} {o : Option String} {e : String}
    (h : r.Effective o e) (hrequired : ¬r.required) (hdiffers : ¬hexEquals e r.defaultHex) :
    o = some e := by
  cases h with
  | stored => rfl
  | initial => exact absurd (decide_eq_true rfl) hdiffers
  | zero _ _ h => exact absurd h hrequired

namespace Settings

/-- A value other than the default and a chosen preset go with the mark, unless the preset counts
as the default. -/
structure Explained (s : Settings) (r : Register) (menu : Menu) : Prop where
  valued : (s.preset? r.code).isSome → (s.value? r.code).isSome
  changed : ∀ v ∈ s.value? r.code, ¬hexEquals v r.defaultHex →
    s.isEdited r.code = true ∨ ∃ p ∈ menu.presets, p.Masks r ∧ p.valueHex = v
  chosen : ∀ label ∈ s.preset? r.code,
    s.isEdited r.code = true ∨ ∃ p, menu.preset? label = some p ∧ isDefaultPreset r p = true

/-! ## One edit -/

section Edits

variable {s s' : Settings} {r : Register} {menu : Menu}

theorem explained_empty (r : Register) (menu : Menu) : empty.Explained r menu :=
  ⟨fun h => (nomatch h), fun _ hv => (nomatch hv), fun _ hlabel => (nomatch hlabel)⟩

theorem Explained.congr (h : s.Explained r menu) (hvalue : s'.value? r.code = s.value? r.code)
    (hedited : s'.isEdited r.code = s.isEdited r.code)
    (hpreset : s'.preset? r.code = s.preset? r.code) : s'.Explained r menu := by
  constructor
  · rw [hvalue, hpreset]
    exact h.valued
  · rw [hvalue, hedited]
    exact h.changed
  · rw [hpreset, hedited]
    exact h.chosen

theorem Explained.clearPreset (h : s.Explained r menu) (code : String) :
    (s.clearPreset code).Explained r menu := by
  have hpreset := s.preset?_clearPreset r.code code
  by_cases hcode : r.code = code
  · rw [if_pos hcode] at hpreset
    exact ⟨fun hsome => by simp [hpreset] at hsome, h.changed,
      fun _ hlabel => by simp [hpreset] at hlabel⟩
  · rw [if_neg hcode] at hpreset
    exact h.congr rfl rfl hpreset

/-- The mark of a stored value is that of the value. -/
theorem explained_store (s : Settings) (c : Catalog) (r : Register) (menu : Menu) (v : String) :
    (s.store c r v).1.Explained r menu := by
  have hvalue := (s.value?_store c r v r.code).trans (if_pos rfl)
  have hedited := (s.isEdited_store c r v r.code).trans (if_pos rfl)
  have hpreset := (s.preset?_store c r v r.code).trans (if_pos rfl)
  have hchosen : ∀ label ∈ (s.store c r v).1.preset? r.code,
      v ≠ "" ∧ ¬hexEquals v r.defaultHex := by
    intro label hlabel
    rw [hpreset] at hlabel
    obtain ⟨n, hn, -⟩ := Option.bind_eq_some_iff.1 hlabel
    unfold editedNumber? at hn
    split at hn
    · cases hn
    · rename_i hedit
      simp only [Bool.or_eq_true, decide_eq_true_eq, not_or] at hedit
      exact ⟨hedit.2, hedit.1⟩
  have hmark (hne : v ≠ "") (hdiffers : ¬hexEquals v r.defaultHex) :
      (s.store c r v).1.isEdited r.code = true := by
    rw [hedited, if_neg hdiffers, if_neg hne]
  constructor
  · intro hsome
    obtain ⟨label, hlabel⟩ := Option.isSome_iff_exists.1 hsome
    rw [hvalue, if_neg (hchosen label hlabel).1]
    rfl
  · intro w hw hdiffers
    rw [hvalue] at hw
    split at hw
    · cases hw
    · rename_i hne
      obtain rfl := Option.some.inj hw
      exact .inl (hmark hne hdiffers)
  · intro label hlabel
    obtain ⟨hne, hdiffers⟩ := hchosen label hlabel
    exact .inl (hmark hne hdiffers)

/-- A chosen preset takes the mark away only if it counts as the default. -/
theorem explained_choose (s : Settings) (r : Register) {label : String} {p : Preset}
    (hp : menu.preset? label = some p) : (s.choose r p).Explained r menu := by
  have hvalue := (s.value?_choose r p r.code).trans (if_pos rfl)
  have hedited := (s.isEdited_choose r p r.code).trans (if_pos rfl)
  have hpreset := (s.preset?_choose r p r.code).trans (if_pos rfl)
  have hlabel : p.label = label := by simpa using List.find?_some hp
  constructor
  · simp [hvalue]
  · intro v hv hdiffers
    obtain rfl := Option.some.inj (hvalue.symm.trans hv)
    cases hdefault : isDefaultPreset r p with
    | true => exact .inr ⟨p, List.mem_of_find?_eq_some hp, ⟨hdefault, hdiffers⟩, rfl⟩
    | false =>
      left
      rw [hedited, hdefault]
      rfl
  · intro label' hlabel'
    obtain rfl := Option.some.inj (hpreset.symm.trans hlabel')
    cases hdefault : isDefaultPreset r p with
    | true => exact .inr ⟨p, hlabel ▸ hp, hdefault⟩
    | false =>
      left
      rw [hedited, hdefault]
      rfl

/-- By cases on the edit and on whether it is one of the register itself. -/
theorem Explained.apply {state : Settings × Catalog} (h : state.1.Explained r menu)
    (hr : state.2.register? r.code = some r) (hmenu : (state.2.menu r).1 = menu) (e : Edit) :
    (e.apply state).1.Explained r menu := by
  have hself {r' : Register} (hr' : state.2.register? r'.code = some r')
      (hcode : r.code = r'.code) : r = r' := by
    rw [← hcode] at hr'
    exact Option.some.inj (hr.symm.trans hr')
  rcases Edit.settings_apply_cases state e with hsame | hempty | ⟨code, hreleased⟩ |
    ⟨r', v, hr', -, hstored⟩ | ⟨r', label, p, hr', hp, hchosen⟩
  · rwa [hsame]
  · rw [hempty]
    exact explained_empty r menu
  · rw [hreleased]
    exact h.clearPreset code
  · rw [hstored]
    by_cases hcode : r.code = r'.code
    · obtain rfl := hself hr' hcode
      exact explained_store ..
    · exact h.congr ((value?_store ..).trans (if_neg hcode))
        ((isEdited_store ..).trans (if_neg hcode)) ((preset?_store ..).trans (if_neg hcode))
  · rw [hchosen]
    by_cases hcode : r.code = r'.code
    · obtain rfl := hself hr' hcode
      exact explained_choose _ r (hmenu ▸ hp)
    · exact h.congr ((value?_choose ..).trans (if_neg hcode))
        ((isEdited_choose ..).trans (if_neg hcode)) ((preset?_choose ..).trans (if_neg hcode))

end Edits

/-! ## Registers that are due -/

variable {s : Settings} {r : Register} {menu : Menu}

theorem defaultAmong_of_isDefaultPreset {p : Preset} (h : isDefaultPreset r p = true)
    {writes : List PresetWrite} (hwrites : p.writes = some writes) {address : UInt64}
    {size : UInt8} (haddress : r.addressValue? = some address) (hsize : r.width? = some size) :
    r.DefaultAmong address size writes := by
  rw [← Register.any_putsAmong_iff]
  unfold isDefaultPreset at h
  rw [hwrites, haddress, hsize] at h
  cases hdefault : r.defaultValue? with
  | none => simp [hdefault] at h
  | some n => simpa [hdefault] using h

/-- Where nothing is required, the only reason for writing an unmarked register is a masked
value. -/
theorem Explained.isEdited_of_due (h : s.Explained r menu) {e : String} {address value : UInt64}
    {size : UInt8} (hdue : r.Due s (r.selected? s menu) e address value size)
    (hrequired : ¬r.required) (hpreset : ∀ p ∈ r.selected? s menu, ¬p.required) :
    (s.value? r.code).isSome ∧ (s.isEdited r.code = true ∨
      ∃ p ∈ menu.presets, p.Masks r ∧ s.value? r.code = some p.valueHex) := by
  cases hdue.reason with
  | changed hdiffers =>
    have hvalue := hdue.effective.stored_of_changed hrequired hdiffers
    refine ⟨by simp [hvalue], (h.changed e hvalue hdiffers).imp_right ?_⟩
    rintro ⟨p, hp, hmasks, rfl⟩
    exact ⟨p, hp, hmasks, hvalue⟩
  | required h => exact absurd h hrequired
  | presetRequired hp h => exact absurd h (hpreset _ hp)
  | presetWrites hp hwrites hnot =>
    unfold Register.selected? at hp
    split at hp
    · obtain ⟨label, hlabel, hfound⟩ := Option.bind_eq_some_iff.1 hp
      refine ⟨h.valued (by simp [hlabel]), (h.chosen label hlabel).imp_right ?_⟩
      rintro ⟨p, hp', hdefault⟩
      obtain rfl := Option.some.inj (hfound.symm.trans hp')
      exact absurd (defaultAmong_of_isDefaultPreset hdefault hwrites hdue.address_eq
        hdue.width_eq) hnot
    · cases hp

/-! ## Exported edits -/

theorem get?_foldl_insert_of_sorted {es : List (String × String)}
    (h : es.Pairwise fun a b => a.1 < b.1) (m : CodeMap String) (code : String) :
    (es.foldl (fun m e => m.insert e.1 e.2) m).get? code = (es.lookup code).or (m.get? code) := by
  induction es generalizing m with
  | nil => rfl
  | cons e es ih =>
    obtain ⟨hlt, hrest⟩ := List.pairwise_cons.1 h
    rw [List.foldl_cons, ih hrest, CodeMap.get?_insert, List.lookup_cons]
    by_cases hcode : code = e.1
    · subst hcode
      simp [Sorted.lookup_eq_none hlt]
    · simp [hcode, beq_false_of_ne hcode]

/-- A profile holds the edits. -/
theorem get?_toProfile (s : Settings) (name chipset code : String) :
    (s.toProfile name chipset).values.get? code = s.edit? code := by
  rw [toProfile, Profile.ofPairs, get?_foldl_insert_of_sorted s.sorted_editedValues,
    lookup_editedValues]
  simp

end Settings

/-! ## Runs -/

namespace Change

variable {c : Catalog}

/-- By induction on the edits of the changes. -/
theorem explained_run (h : c.Distinct) (changes : List Change) {r : Register}
    (hr : r ∈ c.registers) : (run c changes).1.Explained r (c.menu r).1 := by
  rw [run_eq_foldl]
  generalize changes.flatMap (edits c) = es
  induction es using List.reverseRecOn with
  | nil => exact Settings.explained_empty r _
  | append_singleton es e ih =>
    have halike := Edit.alike_foldl (.empty, c) h es
    rw [List.foldl_append]
    refine ih.apply ?_ (halike.menu r hr) e
    exact (Edit.register?_foldl (.empty, c) es r.code).trans (h.register?_code hr)

/-- A register that adds to a plan, while neither it nor its chosen preset is required, is marked
as edited and exported with its value, unless that is the value of a masking preset. -/
theorem isEdited_of_written (h : c.Distinct) (changes : List Change) {s : Settings} {c' : Catalog}
    (hrun : run c changes = (s, c')) {before after : List Register} {r : Register}
    (hr : c.registers = before ++ r :: after) :
    let entriesOf (rs : List Register) := (Catalog.compile { c' with registers := rs } s).1.entries
    let menu := (c'.menu r).1
    entriesOf (before ++ [r]) ≠ entriesOf before → ¬r.required →
      (∀ p ∈ r.selected? s menu, ¬p.required) →
      (s.isEdited r.code = true ∧ ∃ v, s.value? r.code = some v ∧
          ∀ name chipset, (s.toProfile name chipset).values.get? r.code = some v) ∨
        ∃ p ∈ menu.presets, p.Masks r ∧ s.value? r.code = some p.valueHex := by
  intro entriesOf menu hwritten hrequired hpreset
  have hmem : r ∈ c.registers := by simp [hr]
  have halike : c'.Alike c := by simpa [hrun] using alike_run h changes
  have hexplained : s.Explained r menu := by
    have := explained_run h changes hmem
    rwa [hrun, ← halike.menu r hmem] at this
  have hconcat := (halike.distinct h).compile_entries_concat s (halike.registers.trans hr)
  have hcontribution : r.contribution s menu (entriesOf before).length ≠ [] := by
    intro hnil
    exact hwritten (hconcat.trans (by rw [hnil, List.append_nil]))
  obtain ⟨e, address, value, size, hdue⟩ := Register.due_of_contribution_ne_nil hcontribution
  obtain ⟨hvalue, hedited⟩ := hexplained.isEdited_of_due hdue hrequired hpreset
  refine hedited.imp_left fun hedited => ⟨hedited, ?_⟩
  obtain ⟨v, hv⟩ := Option.isSome_iff_exists.1 hvalue
  refine ⟨v, hv, fun name chipset => ?_⟩
  rw [Settings.get?_toProfile, Settings.edit?, if_pos hedited, hv]

/-- A preset with a write to another address, chosen in place of a value. -/
theorem isEdited_of_written_preset :
    let lane : Register := ⟨"LANE", none, none, .text "0x400", some (.int 1), some (.text "0x0"),
      none, false, .plain, none, none, some [.obj [("value", .str "0x3"), ("label", .str "Fast"),
        ("writes", .arr [.obj [("address", .str "0x404"), ("value", .str "0x1")]])]], none⟩
    let lock : Register := ⟨"LOCK", none, none, .text "0x408", some (.int 1), some (.text "0x1"),
      none, true, .plain, none, none, none, none⟩
    let c : Catalog := ⟨.null, [lock, lane], none, none, []⟩
    let changes : List Change := [.setValue "LANE" "2", .selectPreset "LANE" "Fast"]
    c.Distinct ∧ c.registers = [lock] ++ lane :: [] ∧ ¬lane.required ∧
      ∃ s c', run c changes = (s, c') ∧
        (Catalog.compile { c' with registers := [lock] ++ [lane] } s).1.entries ≠
          (Catalog.compile { c' with registers := [lock] } s).1.entries ∧
        (∀ p ∈ lane.selected? s (c'.menu lane).1, ¬p.required) ∧
        s.isEdited "LANE" = true ∧ ∃ v, s.value? "LANE" = some v ∧
          ∀ name chipset, (s.toProfile name chipset).values.get? "LANE" = some v := by
  intro lane lock c changes
  have hdistinct : c.Distinct := by decide
  have hsplit : c.registers = [lock] ++ lane :: [] := rfl
  have hrequired : ¬lane.required := by decide
  have hpreset : ∀ p ∈ lane.selected? (run c changes).1 ((run c changes).2.menu lane).1,
      ¬p.required := by
    decide +kernel
  have hmasks : ∀ p ∈ ((run c changes).2.menu lane).1.presets,
      ¬Settings.isDefaultPreset lane p := by
    decide +kernel
  have hwritten :
      (Catalog.compile { (run c changes).2 with registers := [lock] ++ [lane] }
          (run c changes).1).1.entries ≠
        (Catalog.compile { (run c changes).2 with registers := [lock] }
          (run c changes).1).1.entries := by
    decide +kernel
  rcases hrun : run c changes with ⟨s, c'⟩
  rw [hrun] at hpreset hmasks hwritten
  refine ⟨hdistinct, hsplit, hrequired, s, c', rfl, hwritten, hpreset, ?_⟩
  rcases isEdited_of_written hdistinct changes hrun hsplit hwritten hrequired hpreset with
    hedited | ⟨p, hp, hmasked, -⟩
  · exact hedited
  · exact absurd hmasked.1 (hmasks p hp)

/-- The masking preset itself: its writes are compiled, and its value once it is released, and
neither is an edit. -/
theorem written_without_edit :
    ∃ c r, Catalog.ofDocument (.obj [("groups", .arr [.obj [("code", .str "g"), ("items", .arr
        [.obj [("code", .str "R"), ("address", .str "0x400"), ("size_bytes", .int 1),
          ("default", .str "0x0"), ("byte_fields", .arr [.obj [("value", .str "0x3"),
            ("label", .str "Warm"), ("writes", .arr [
              .obj [("address", .str "0x404"), ("value", .str "0x1")],
              .obj [("address", .str "0x400"), ("value", .str "0x0")]])]])]])]])]) = .ok c ∧
      c.registers = [r] ∧ c.Distinct ∧ ¬r.required ∧
      let warm := run c [.selectPreset "R" "Warm"]
      let released := run c [.selectPreset "R" "Warm", .clearPreset "R"]
      (∀ p ∈ r.selected? warm.1 (warm.2.menu r).1, ¬p.required) ∧
        (warm.2.compile warm.1).1.operations = [⟨0, 0x404, 1, 1⟩, ⟨0, 0x400, 0, 1⟩] ∧
        warm.1.isEdited "R" = false ∧
        r.selected? released.1 (released.2.menu r).1 = none ∧
        (released.2.compile released.1).1.operations = [⟨0, 0x400, 3, 1⟩] ∧
        released.1.isEdited "R" = false ∧ released.1.editedValues = [] := by
  let r : Register := ⟨"R", none, none, .text "0x400", some (.int 1), some (.text "0x0"), none,
    false, .plain, none, none, some [.obj [("value", .str "0x3"), ("label", .str "Warm"),
      ("writes", .arr [.obj [("address", .str "0x404"), ("value", .str "0x1")],
        .obj [("address", .str "0x400"), ("value", .str "0x0")]])]], none⟩
  exact ⟨⟨_, [r], none, none, []⟩, r, by cbv, rfl, by decide, by decide, by decide +kernel⟩

end Change

end RegisterImage
