import RegisterImage.Proofs.Settings.Edits

/-!
# Lists of values

What a list of values leaves behind: for every code of the catalog the last of its values that has
a hexadecimal digit, with the edit mark and the preset that go with it, and nothing for any other
code.

## Main definitions

* `Stored`, `Settings.stored` — what is stored for one code.
* `lastValue?` — the value of a code that counts in a list.
* `lastValue?_of_sorted` — the value that counts when there is one for each code.
* `Settings.stored_applyValue`, `Settings.stored_applyValues` — what one value leaves for a code, and
  what a list does: the value that counts decides everything.
* `Settings.summary_applyValues` — how many values are applied and skipped.
-/

namespace RegisterImage

/-! ## What is stored for a code -/

structure Stored where
  value : Option String
  edited : Bool
  preset : Option String
  deriving DecidableEq, Repr

namespace Stored

def nothing : Stored :=
  ⟨none, false, none⟩

/-- What a value leaves for a register: its mark, and the preset that it chooses. -/
def ofValue (r : Register) (menu : Menu) (v : Option String) : Stored where
  value := v
  edited := v.any fun v => !hexEquals v r.defaultHex
  preset := v.bind (Settings.labelFor? r menu)

end Stored

namespace Settings

def stored (s : Settings) (code : String) : Stored :=
  ⟨s.value? code, s.isEdited code, s.preset? code⟩

/-- Settings are what they store for each code. -/
theorem ext_stored {s s' : Settings} (h : ∀ code, s.stored code = s'.stored code) : s = s' := by
  obtain ⟨values, edited, presets⟩ := s
  obtain ⟨values', edited', presets'⟩ := s'
  simp only [stored, Stored.mk.injEq] at h
  have hvalues : values = values' := CodeMap.ext_get? fun code => (h code).1
  have hpresets : presets = presets' := CodeMap.ext_get? fun code => (h code).2.2
  have hedited : edited = edited' := by
    refine CodeMap.ext_get? fun code => ?_
    have hmark : (edited.get? code).isSome = (edited'.get? code).isSome := (h code).2.1
    cases hleft : edited.get? code <;> cases hright : edited'.get? code <;> simp_all
  rw [hvalues, hedited, hpresets]

/-- A value with a digit replaces all that is stored for its register, whatever that was, and
nothing else. -/
theorem stored_store (s : Settings) (c : Catalog) (r : Register) {v : String} (hv : v ≠ "")
    (code : String) : (s.store c r v).1.stored code =
      if code = r.code then .ofValue r (c.menu r).1 (some v) else s.stored code := by
  rw [stored, value?_store, isEdited_store, preset?_store]
  by_cases hcode : code = r.code
  · cases hequal : hexEquals v r.defaultHex <;> simp [hcode, hv, hequal, Stored.ofValue]
  · simp only [if_neg hcode, stored]

end Settings

/-! ## The value that counts -/

/-- Whether an entry of a list has a value for a code. -/
def HasValueFor (code : String) (e : String × Scalar) : Prop :=
  e.1 = code ∧ e.2.canonical ≠ ""

instance (code : String) (e : String × Scalar) : Decidable (HasValueFor code e) :=
  inferInstanceAs (Decidable (_ ∧ _))

def lastValue? (values : List (String × Scalar)) (code : String) : Option String :=
  ((values.filter fun e => HasValueFor code e).map (·.2.canonical)).getLast?

section LastValue

variable (values values' : List (String × Scalar)) (code : String)

theorem lastValue?_append :
    lastValue? (values ++ values') code =
      (lastValue? values' code).or (lastValue? values code) := by
  rw [lastValue?, List.filter_append, List.map_append, List.getLast?_append]
  rfl

theorem lastValue?_singleton (e : String × Scalar) :
    lastValue? [e] code = if HasValueFor code e then some e.2.canonical else none := by
  unfold lastValue?
  split <;> simp [*]

theorem lastValue?_cons (e : String × Scalar) :
    lastValue? (e :: values) code =
      (lastValue? values code).or (if HasValueFor code e then some e.2.canonical else none) := by
  rw [← lastValue?_singleton]
  exact lastValue?_append [e] values code

theorem isSome_lastValue?_iff :
    (lastValue? values code).isSome ↔ ∃ e ∈ values, HasValueFor code e := by
  simp [lastValue?]

variable {values values' code}

/-- Only the entries of a code count for it, in their order. -/
theorem lastValue?_congr
    (h : values.filter (fun e => e.1 = code) = values'.filter fun e => e.1 = code) :
    lastValue? values code = lastValue? values' code := by
  have hsplit (es : List (String × Scalar)) : (es.filter fun e => HasValueFor code e) =
      (es.filter fun e => e.1 = code).filter fun e => e.2.canonical ≠ "" := by
    rw [List.filter_filter]
    exact List.filter_congr fun e _ => (Bool.decide_and ..).trans (Bool.and_comm ..)
  rw [lastValue?, lastValue?, hsplit, hsplit, h]

/-- With one value for each code, the value of a code counts unless it is blank. By induction on the
values: the codes ascend, so that no later value is for the same code. -/
theorem lastValue?_of_sorted (h : values.Pairwise fun a b => a.1 < b.1) (code : String) :
    lastValue? values code = ((values.lookup code).map Scalar.canonical).filter (· ≠ "") := by
  induction values with
  | nil => rfl
  | cons e values ih =>
    obtain ⟨hlt, hrest⟩ := List.pairwise_cons.1 h
    rw [lastValue?_cons, ih hrest]
    by_cases hcode : code = e.1
    · subst hcode
      rw [Sorted.lookup_eq_none hlt, List.lookup_cons_self]
      by_cases hblank : e.2.canonical = "" <;> simp [HasValueFor, hblank, Option.filter_some]
    · have hvalue : ¬HasValueFor code e := fun hvalue => hcode hvalue.1.symm
      rw [if_neg hvalue, Option.or_none, List.lookup_cons, beq_false_of_ne hcode]

end LastValue

namespace Settings

/-! ## Applied values -/

theorem applyValues_concat (c : Catalog) (values : List (String × Scalar)) (e : String × Scalar) :
    applyValues c (values ++ [e]) = applyValue (applyValues c values) e := by
  rw [applyValues, List.foldl_append]
  rfl

theorem applyValues_eq_foldl (c : Catalog) (values : List (String × Scalar)) :
    ((applyValues c values).1, (applyValues c values).2.1) =
      (Change.stores values).foldl Edit.apply (empty, c) :=
  Change.foldl_applyValue_eq values empty c ⟨0, 0⟩

section Menus

variable (c : Catalog) (values : List (String × Scalar))

theorem registers_applyValues : (applyValues c values).2.1.registers = c.registers := by
  have hregisters := Edit.registers_foldl (empty, c) (Change.stores values)
  rwa [← applyValues_eq_foldl] at hregisters

theorem register?_applyValues (code : String) :
    (applyValues c values).2.1.register? code = c.register? code := by
  rw [Catalog.register?, registers_applyValues, ← Catalog.register?]

variable {c}

theorem menu_applyValues {r : Register} (hr : c.register? r.code = some r) :
    ((applyValues c values).2.1.menu r).1 = (c.menu r).1 := by
  have hmenu := Edit.menu_foldl (empty, c) hr (Change.stores values)
  rwa [← applyValues_eq_foldl] at hmenu

end Menus

/-- One value is stored for its code if there is a register to store it for. -/
theorem stored_applyValue (state : Settings × Catalog × ApplySummary) (e : String × Scalar)
    (code : String) : (applyValue state e).1.stored code =
      if HasValueFor code e then
        (state.2.1.register? code).elim (state.1.stored code) fun r =>
          .ofValue r (state.2.1.menu r).1 (some e.2.canonical)
      else state.1.stored code := by
  obtain ⟨s, c, summary⟩ := state
  rcases applyValue_cases s c summary e with ⟨hreason, hskip⟩ | ⟨r, hfound, hne, happly⟩
  · rw [hskip]
    split
    · rename_i hvalue
      obtain ⟨rfl, hne⟩ := hvalue
      rw [hreason.resolve_right hne, Option.elim_none]
    · rfl
  · have hself : r.code = e.1 := (Catalog.mem_of_register? hfound).2
    rw [happly]
    dsimp only
    rw [stored_store s c r hne]
    by_cases hcode : code = e.1
    · have hvalue : HasValueFor code e := ⟨hcode.symm, hne⟩
      rw [if_pos (hcode.trans hself.symm), if_pos hvalue, hcode, hfound, Option.elim_some]
    · have hvalue : ¬HasValueFor code e := fun hvalue => hcode hvalue.1.symm
      rw [if_neg (fun hself' => hcode (hself'.trans hself)), if_neg hvalue]

/-- By induction from the last value. -/
theorem stored_applyValues (c : Catalog) (values : List (String × Scalar)) (code : String) :
    (applyValues c values).1.stored code = (c.register? code).elim .nothing fun r =>
      .ofValue r (c.menu r).1 (lastValue? values code) := by
  induction values using List.reverseRecOn with
  | nil => cases c.register? code <;> rfl
  | append_singleton values e ih =>
    rw [applyValues_concat, stored_applyValue, register?_applyValues, ih, lastValue?_append,
      lastValue?_singleton]
    cases hcode : c.register? code with
    | none => exact ite_self _
    | some r =>
      obtain rfl := (Catalog.mem_of_register? hcode).2
      rw [Option.elim_some, Option.elim_some, Option.elim_some, menu_applyValues values hcode]
      split
      · rw [Option.some_or]
      · rw [Option.none_or]

theorem value?_applyValues {c : Catalog} {code : String} (hcode : (c.register? code).isSome)
    (values : List (String × Scalar)) :
    (applyValues c values).1.value? code = lastValue? values code := by
  obtain ⟨r, hr⟩ := Option.isSome_iff_exists.1 hcode
  have hstored := stored_applyValues c values code
  rw [hr, Option.elim_some] at hstored
  exact congrArg Stored.value hstored

/-! ## Counts -/

/-- Values of unknown codes are skipped, and those without a digit. -/
def Skips (c : Catalog) (e : String × Scalar) : Prop :=
  c.register? e.1 = none ∨ e.2.canonical = ""

instance (c : Catalog) (e : String × Scalar) : Decidable (Skips c e) :=
  inferInstanceAs (Decidable (_ ∨ _))

theorem summary_applyValues (c : Catalog) (values : List (String × Scalar)) :
    (applyValues c values).2.2 =
      ⟨values.countP fun e => ¬Skips c e, values.countP fun e => Skips c e⟩ := by
  induction values using List.reverseRecOn with
  | nil => rfl
  | append_singleton values e ih =>
    rw [applyValues_concat, List.countP_append, List.countP_append, List.countP_singleton,
      List.countP_singleton]
    have hregister : (applyValues c values).2.1.register? e.1 = c.register? e.1 :=
      register?_applyValues c values e.1
    generalize applyValues c values = before at ih hregister
    obtain ⟨s, c', summary⟩ := before
    dsimp only at ih hregister
    rcases applyValue_cases s c' summary e with ⟨hreason, hskip⟩ | ⟨r, hfound, hne, happly⟩
    · have hskips : Skips c e := by
        rwa [hregister] at hreason
      rw [hskip, ih]
      simp [hskips]
    · have hskips : ¬Skips c e := by
        rintro (hnone | hblank)
        · rw [← hregister, hfound] at hnone
          cases hnone
        · exact hne hblank
      rw [happly, ih]
      simp [hskips]

end Settings

end RegisterImage
