import RegisterImage.Proofs.Command.Runs
import RegisterImage.Proofs.Settings.Values

/-!
# Layers of values

A list of values is read in order, and for each code the last value with a hexadecimal digit counts.
Nothing else does: not what was set before, not the order in which the codes come, not the values
that a later one replaces. So the values of a setup lie over those of its profile, and a blank one
shows what lies beneath.

## Main definitions

* `lasting` — the values of a list that count.
* `Setup.prepare_of_profileValues` — the settings that a setup starts from.
* `Settings.applyValues_layered` — what the settings of a list of values depend on.
-/

namespace RegisterImage

/-! ## The values that count -/

/-- The values of known codes that no later value of the same code replaces, without the blank
ones. -/
def lasting (c : Catalog) : List (String × Scalar) → List (String × Scalar)
  | [] => []
  | e :: values =>
    if c.contains e.1 ∧ e.2.canonical ≠ "" ∧ ∀ e' ∈ values, ¬HasValueFor e.1 e' then
      e :: lasting c values
    else lasting c values

/-- By induction on the values: one that is left out is blank, or a later one replaces it. -/
theorem lastValue?_lasting {c : Catalog} {code : String} (hcode : c.contains code)
    (values : List (String × Scalar)) :
    lastValue? (lasting c values) code = lastValue? values code := by
  induction values with
  | nil => rfl
  | cons e values ih =>
    rw [lasting, lastValue?_cons]
    split
    · rw [lastValue?_cons, ih]
    · rename_i hlost
      rw [ih]
      split
      · rename_i hvalue
        obtain ⟨rfl, hne⟩ := hvalue
        have hlater : ∃ e' ∈ values, HasValueFor e.1 e' := by grind
        rw [Option.or_of_isSome ((isSome_lastValue?_iff values e.1).2 hlater)]
      · rw [Option.or_none]

theorem mem_of_mem_lasting {c : Catalog} {values : List (String × Scalar)} {e : String × Scalar}
    (he : e ∈ lasting c values) : e ∈ values ∧ HasValueFor e.1 e := by
  induction values with
  | nil => cases he
  | cons e' values ih =>
    rw [lasting] at he
    split at he
    · rename_i hkept
      rcases List.mem_cons.1 he with rfl | hlater
      · exact ⟨List.mem_cons_self, rfl, hkept.2.1⟩
      · exact (ih hlater).imp_left (List.mem_cons_of_mem e')
    · exact (ih he).imp_left (List.mem_cons_of_mem e')

/-- No code counts twice. -/
theorem nodup_codes_lasting (c : Catalog) (values : List (String × Scalar)) :
    ((lasting c values).map Prod.fst).Nodup := by
  induction values with
  | nil => exact List.nodup_nil
  | cons e values ih =>
    rw [lasting]
    split
    · rename_i hkept
      refine List.nodup_cons.2 ⟨fun hagain => ?_, ih⟩
      obtain ⟨e', he', hcode⟩ := List.mem_map.1 hagain
      obtain ⟨hmem, hvalue⟩ := mem_of_mem_lasting he'
      exact hkept.2.2 e' hmem (hcode ▸ hvalue)
    · exact ih

namespace Settings

/-! ## Layers -/

variable {c : Catalog} {values values' : List (String × Scalar)}

theorem applyValues_congr
    (h : ∀ code, c.contains code → lastValue? values' code = lastValue? values code) :
    (applyValues c values').1 = (applyValues c values).1 := by
  refine ext_stored fun code => ?_
  rw [stored_applyValues, stored_applyValues]
  cases hcode : c.register? code with
  | none => rfl
  | some r => rw [h code (by rw [Catalog.contains, hcode]; rfl)]

/-- Changes leave no trace in what a list of values gives, not even in the menus. -/
theorem applyValues_run (changes : List Change) :
    (applyValues (Change.run c changes).2 values).1 = (applyValues c values).1 := by
  refine ext_stored fun code => ?_
  rw [stored_applyValues, stored_applyValues, Change.run_eq_foldl, Edit.register?_foldl]
  cases hcode : c.register? code with
  | none => rfl
  | some r =>
    obtain rfl := (Catalog.mem_of_register? hcode).2
    rw [Option.elim_some, Option.elim_some,
      Edit.menu_foldl (empty, c) hcode (changes.flatMap (Change.edits c))]

/-- The values of a later list lie over those of an earlier one. -/
theorem stored_applyValues_append (c : Catalog) (values values' : List (String × Scalar))
    (code : String) : (applyValues c (values ++ values')).1.stored code =
      if ∃ e ∈ values', HasValueFor code e then (applyValues c values').1.stored code
      else (applyValues c values).1.stored code := by
  rw [stored_applyValues, stored_applyValues, stored_applyValues, lastValue?_append]
  split
  · rename_i hvalue
    rw [Option.or_of_isSome ((isSome_lastValue?_iff values' code).2 hvalue)]
  · rename_i hnone
    rw [← isSome_lastValue?_iff, Option.not_isSome_iff_eq_none] at hnone
    rw [hnone, Option.none_or]

end Settings

/-! ## Setups -/

/-- A setup whose profile can be read starts from the values of the profile and its own. -/
theorem Setup.prepare_of_profileValues {setup : Setup} {files : Files} {c : Catalog}
    {profile : List (String × Scalar)} {name : String} {before after : List Message}
    (h : ((setup.profileValues files c).run before).run = (.ok (profile, name), after)) :
    ∃ ready later, ((setup.prepare files c).run before).run = (.ok ready, later) ∧
      ready.settings = (Settings.applyValues c (profile ++ setup.ownValues c)).1 := by
  rw [Setup.prepare, Run.bind_of_ok h]
  by_cases hempty : (profile ++ setup.ownValues c).isEmpty
  · simp only [if_pos hempty]
    rw [List.isEmpty_iff.1 hempty]
    exact ⟨_, _, rfl, rfl⟩
  · simp only [if_neg hempty]
    exact ⟨_, _, rfl, rfl⟩

namespace Settings

/-- The settings of a list of values are those of the values that count. Neither what was set
before nor the order of the codes makes a difference, values of unknown codes and blank ones are
skipped and all others are applied, and in a setup the values of its own replace those of its
profile, while blank ones leave them in force. -/
theorem applyValues_layered (c : Catalog) (values : List (String × Scalar)) :
    (∀ (before : Settings) (changes : List Change),
      (Change.apply (before, (Change.run c changes).2) (.applyValues values)).1 =
        (applyValues c values).1) ∧
    (∀ values', (∀ code, values'.filter (·.1 = code) = values.filter (·.1 = code)) →
      (applyValues c values').1 = (applyValues c values).1) ∧
    ((lasting c values).map Prod.fst).Nodup ∧
    (applyValues c (lasting c values)).1 = (applyValues c values).1 ∧
    (applyValues c values).2.2.skipped =
      (values.countP fun e => !c.contains e.1 || e.2.canonical = "") ∧
    (applyValues c values).2.2.applied + (applyValues c values).2.2.skipped = values.length ∧
    ∀ (setup : Setup) (files : Files) (name : String) (before after : List Message),
      ((setup.profileValues files c).run before).run = (.ok (values, name), after) →
        ∃ ready later, ((setup.prepare files c).run before).run = (.ok ready, later) ∧
          ∀ code, ready.settings.stored code =
            if ∃ e ∈ setup.ownValues c, HasValueFor code e then
              (applyValues c (setup.ownValues c)).1.stored code
            else (applyValues c values).1.stored code := by
  refine ⟨fun before changes => ?_, fun values' h => ?_, nodup_codes_lasting c values, ?_, ?_, ?_,
    fun setup files name before after hprofile => ?_⟩
  · exact applyValues_run changes
  · exact applyValues_congr fun code _ => lastValue?_congr (h code)
  · exact applyValues_congr fun code hcode => lastValue?_lasting hcode values
  · rw [summary_applyValues]
    refine List.countP_congr fun e _ => ?_
    rw [decide_eq_true_iff, Skips]
    simp [Catalog.contains]
  · rw [summary_applyValues, List.length_eq_countP_add_countP fun e => decide ¬Skips c e]
    simp
  · obtain ⟨ready, later, hready, hsettings⟩ := Setup.prepare_of_profileValues hprofile
    refine ⟨ready, later, hready, fun code => ?_⟩
    rw [hsettings, stored_applyValues_append]

/-- The profile gives both registers a value, and the setup one of them another; its blank value
leaves the other one in force. -/
theorem applyValues_layered_profile :
    let register (code : String) : Register :=
      ⟨code, none, none, .text "0x400", some (.int 1), some (.text "0x0"), none, false, .plain,
        none, none, none, none⟩
    let c : Catalog := ⟨.obj [], [register "MODE", register "LANE"], none, none, []⟩
    let setup : Setup := ⟨none, none, ⟨[], []⟩, some "profile.json",
      [("LANE", .str " "), ("MODE", .str "7")], "", .standard, none, false, none, false⟩
    let files : Files := fun _ => .ok (encodeUtf8
      "\x7b\"values\": \x7b\"MODE\": 5, \"LOCK\": 1, \"LANE\": \"02\"\x7d\x7d")
    let values : List (String × Scalar) :=
      [("MODE", .int 5), ("LOCK", .int 1), ("LANE", .text "02")]
    ∃ ready later, ((setup.prepare files c).run []).run = (.ok ready, later) ∧
      ready.settings.stored "MODE" = ⟨some "0x7", true, none⟩ ∧
      ready.settings.stored "LANE" = ⟨some "0x2", true, none⟩ ∧
      (applyValues c [("LANE", .text "02"), ("MODE", .int 5), ("LOCK", .int 1)]).1 =
        (applyValues c values).1 ∧
      (applyValues c values).2.2.skipped = 1 ∧ (applyValues c values).2.2.applied = 2 := by
  intro register c setup files values
  have hprofile : ((setup.profileValues files c).run []).run = (.ok (values, ""), []) := by
    decide +kernel
  obtain ⟨-, horder, -, -, hskipped, happlied, hsetup⟩ := applyValues_layered c values
  obtain ⟨ready, later, hready, hstored⟩ := hsetup setup files "" [] [] hprofile
  have hone : (applyValues c values).2.2.skipped = 1 := hskipped.trans (by decide +kernel)
  have hthree : (applyValues c values).2.2.applied + (applyValues c values).2.2.skipped = 3 :=
    happlied
  refine ⟨ready, later, hready, ?_, ?_, horder _ fun code => ?_, hone, by omega⟩
  · rw [hstored]
    decide +kernel
  · rw [hstored]
    decide +kernel
  · by_cases hlane : "LANE" = code
    · subst hlane
      rfl
    · simp [values, List.filter_cons, hlane]

end Settings

end RegisterImage
