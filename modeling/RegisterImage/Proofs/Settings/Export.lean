import RegisterImage.Proofs.Json.ReadBack
import RegisterImage.Proofs.Plan.Edited

/-!
# Profiles keep the settings

Settings that were entered as values survive an export: a profile holds the edits alone, and yet
the settings of its values have the same edits and are compiled to the same plan. What is left out
is at its default.

## Main definitions

* `Settings.textual_toProfile` — a profile is read back from its text.
* `Settings.profileValues?_toProfile` — its values are the edits.
* `Settings.Consistent.agree_applyValues` — the edits give settings that agree.
* `export_of_run` — what comes back from a profile.
-/

namespace RegisterImage

namespace Settings

/-! ## Profiles -/

theorem entries_toProfile (s : Settings) (name chipset : String) :
    (s.toProfile name chipset).values.entries = s.editedValues := by
  apply Sorted.ext_lookup (s.toProfile name chipset).values.sorted s.sorted_editedValues
  intro code
  rw [lookup_editedValues]
  exact s.get?_toProfile name chipset code

theorem textual_toProfile (s : Settings) (name chipset : String) :
    (s.toProfile name chipset).toJson.Textual 2 := by
  have hkeys : (s.editedValues.map (·.1)).Pairwise (· < ·) :=
    List.pairwise_map.2 s.sorted_editedValues
  have hnodup : (s.editedValues.map (·.1)).Nodup := hkeys.imp fun hlt => String.ne_of_lt hlt
  rw [Profile.toJson, entries_toProfile]
  have hvalues : Json.Textual 1 (.obj (s.editedValues.map fun e => (e.1, .str e.2))) := by
    refine ⟨by simpa [Function.comp_def] using hnodup, ?_⟩
    intro e he
    obtain ⟨e, -, rfl⟩ := List.mem_map.1 he
    trivial
  refine ⟨by simp, ?_⟩
  simpa [Json.Textual] using hvalues

/-- The edits as values to apply. -/
def exported (s : Settings) : List (String × Scalar) :=
  s.editedValues.map fun e => (e.1, .text e.2)

theorem profileValues?_toProfile (s : Settings) (name chipset : String) (c : Catalog) :
    profileValues? (s.toProfile name chipset).toJson c = some s.exported := by
  have hscalars : scalarEntries (s.editedValues.map fun e => (e.1, .str e.2)) = s.exported := by
    rw [scalarEntries, List.filterMap_map]
    exact congrFun List.filterMap_eq_map' s.editedValues
  rw [Profile.toJson, entries_toProfile]
  simp [profileValues?, Json.entries?, hscalars]

/-! ## Values -/

theorem lookup_exported (s : Settings) (code : String) :
    s.exported.lookup code = (s.edit? code).map .text := by
  rw [← lookup_editedValues, exported]
  induction s.editedValues with
  | nil => rfl
  | cons e es ih =>
    rw [List.map_cons, List.lookup_cons, List.lookup_cons]
    cases code == e.1 with
    | true => rfl
    | false => exact ih

theorem sorted_exported (s : Settings) : s.exported.Pairwise fun a b => a.1 < b.1 :=
  List.pairwise_map.2 s.sorted_editedValues

variable {s : Settings} {c c' : Catalog}

/-- The settings of the edits have the edits as their values, and nothing else. -/
theorem Consistent.value?_applyValues (hs : s.Consistent c) (hc : c.Distinct)
    (halike : c'.Alike c) {r : Register} (hr : r ∈ c.registers) :
    (applyValues c' s.exported).1.value? r.code = s.edit? r.code := by
  have hsettled := hs.settled r hr
  have hfound : (c'.register? r.code).isSome := by
    simp [(halike.distinct hc).register?_code (halike.registers ▸ hr)]
  have hcanonical : ∀ v ∈ s.edit? r.code, (Scalar.text v).canonical = v ∧ v ≠ "" := by
    intro v hv
    have hvalue : s.value? r.code = some v := by
      unfold edit? at hv
      split at hv
      · exact hv
      · cases hv
    exact ⟨hsettled.canonical v hvalue, hsettled.ne_empty v hvalue⟩
  rw [Settings.value?_applyValues hfound, lastValue?_of_sorted s.sorted_exported, lookup_exported]
  cases hedit : s.edit? r.code with
  | none => rfl
  | some v =>
    obtain ⟨hself, hne⟩ := hcanonical v hedit
    simp [hself, hne]

/-- What is not exported is at its default. -/
theorem Consistent.agree_applyValues (hs : s.Consistent c) (hc : c.Distinct)
    (halike : c'.Alike c) {r : Register} (hr : r ∈ c.registers) :
    s.Agree (applyValues c' s.exported).1 r := by
  have hsettled := hs.settled r hr
  have hvalue := hs.value?_applyValues hc halike hr
  cases hstored : s.value? r.code with
  | none =>
    left
    rw [hvalue, edit?, hstored, ite_self]
  | some v =>
    have hedited := hsettled.isEdited_eq v hstored
    cases hequal : hexEquals v r.defaultHex with
    | false =>
      left
      simp [hvalue, edit?, hedited, hequal]
    | true =>
      have hdefault := Register.eq_defaultHex_of_hexEquals (hsettled.canonical v hstored) hequal
      right
      refine ⟨.inr (hdefault ▸ hstored), .inl ?_⟩
      simp [hvalue, edit?, hedited, hequal]

end Settings

/-- Settings that were entered as values are exported as a document that is read back from its
text, and from any settings before, the values of the document give settings with the same edits
that are compiled to the same plan. -/
theorem export_of_run {c : Catalog} (hc : c.Distinct) {changes : List Change}
    (hchanges : ∀ change ∈ changes, change.SetsValues) {s : Settings} {c' : Catalog}
    (hrun : Change.run c changes = (s, c')) (name chipset : String) :
    let document := (s.toProfile name chipset).toJson
    Json.parse? document.compact = some document ∧ Json.parse? document.pretty = some document ∧
      ∃ values, (∀ c'', profileValues? document c'' = some values) ∧
        ∀ (before : Settings) (c'' : Catalog), c''.Alike c →
          let after := Change.apply (before, c'') (.applyValues values)
          after.1.editedValues = s.editedValues ∧
            (after.2.compile after.1).1 = (c'.compile s).1 := by
  intro document
  obtain ⟨hs, halike⟩ := Change.consistent_run hc hchanges
  rw [hrun] at hs halike
  have htextual : document.Textual 2 := s.textual_toProfile name chipset
  refine ⟨htextual.parse?_compact (by decide), htextual.parse?_pretty (by decide), s.exported,
    s.profileValues?_toProfile name chipset, ?_⟩
  intro before c'' halike'' after
  have hsets : (Change.applyValues s.exported).SetsValues := trivial
  obtain ⟨hs', halike'⟩ : after.1.Consistent c ∧ after.2.Alike c :=
    Change.consistent_apply (Settings.consistent_empty c) hc halike'' hsets
  have hagree : ∀ r ∈ c.registers, s.Agree after.1 r := fun r hr =>
    hs.agree_applyValues hc halike'' hr
  refine ⟨(hs.editedValues_eq hs' hagree).symm, ?_⟩
  rw [halike'.compile_eq hc, halike.compile_eq hc, hs.compile_eq hs' hagree hc]

/-- A value at its default and a blank one are left out, and the preset is chosen again. -/
theorem export_of_run_with_preset :
    let mode : Register := ⟨"MODE", none, none, .text "0x20400", some (.int 2), some (.text "0x0"),
      none, false, .plain, none, none, some [.obj [("value", .str "0x3"), ("label", .str "Fast"),
        ("writes", .arr [.obj [("address", .str "0x404"), ("value", .str "0x1")]])]], none⟩
    let lane : Register := ⟨"LANE", none, none, .text "0x20408", some (.int 4), some (.text "0x7"),
      none, true, .plain, none, none, none, none⟩
    let c : Catalog := ⟨.null, [mode, lane], none, none, []⟩
    let changes : List Change := [.applyValues [("LANE", .text "7"), ("LOST", .text "1")],
      .setValue "MODE" "3", .setValue "LANE" " "]
    let name := "board \"7\"\n"
    c.Distinct ∧ (∀ change ∈ changes, change.SetsValues) ∧
    ∃ s c', Change.run c changes = (s, c') ∧ s.editedValues = [("MODE", "0x3")] ∧
      (c'.compile s).1.operations = [⟨0, 0x404, 1, 1⟩, ⟨2, 0x408, 7, 4⟩] ∧
      let document := (s.toProfile name "Prom21").toJson
      Json.parse? document.pretty = some document ∧
        ∃ values, profileValues? document c = some values ∧
          ∀ before, let after := Change.apply (before, c) (.applyValues values)
            after.1.editedValues = [("MODE", "0x3")] ∧
              (after.2.compile after.1).1.operations = [⟨0, 0x404, 1, 1⟩, ⟨2, 0x408, 7, 4⟩] := by
  intro mode lane c changes name
  have hc : c.Distinct := by decide
  have hchanges : ∀ change ∈ changes, change.SetsValues := by
    simp [changes, Change.SetsValues]
  have hedits : (Change.run c changes).1.editedValues = [("MODE", "0x3")] := by decide
  have hplan : ((Change.run c changes).2.compile (Change.run c changes).1).1.operations =
      [⟨0, 0x404, 1, 1⟩, ⟨2, 0x408, 7, 4⟩] := by
    decide
  rcases hrun : Change.run c changes with ⟨s, c'⟩
  rw [hrun] at hedits hplan
  obtain ⟨-, hpretty, values, hvalues, hback⟩ := export_of_run hc hchanges hrun name "Prom21"
  refine ⟨hc, hchanges, s, c', rfl, hedits, hplan, hpretty, values, hvalues c, ?_⟩
  intro before after
  obtain ⟨hedits', hplan'⟩ := hback before c (.refl c)
  exact ⟨hedits'.trans hedits, by rw [hplan', hplan]⟩

end RegisterImage
