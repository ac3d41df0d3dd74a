import RegisterImage.Proofs.Catalog.Menus
import RegisterImage.Proofs.Text.Canonical
import RegisterImage.Settings

/-!
# Changes and what they store

Settings are changed one step at a time. What a stored value leaves behind for its register is of
one piece: a canonical value, the edit mark that goes with it, and the preset that the value
chooses.

## Main definitions

* `Change`, `Change.run` — the changes there are, and the settings after a list of them.
* `Settings.Settled`, `Settings.Consistent` — what is stored for one register and for all.
* `Settings.Consistent.store` — a stored value keeps settings consistent.
-/

namespace RegisterImage

/-! ## Changes -/

inductive Change where
  | setValue (code text : String)
  | selectPreset (code label : String)
  | clearPreset (code : String)
  | applyValues (values : List (String × Scalar))
  | applyWrites (writes : List DeviceWrite)
  | reset

namespace Change

/-- The settings after a change, and the catalog with the menus that were looked at. A change
that fails changes no settings. -/
def apply (state : Settings × Catalog) : Change → Settings × Catalog
  | setValue code text =>
    match state.1.setValue state.2 code text with
    | .ok (_, s, c) => (s, c)
    | .error _ => state
  | selectPreset code label =>
    match state.1.selectPreset state.2 code label with
    | (.ok s, c) => (s, c)
    | (.error _, c) => (state.1, c)
  | clearPreset code => (state.1.clearPreset code, state.2)
  | applyValues values =>
    let (s, c, _) := Settings.applyValues state.2 values
    (s, c)
  | applyWrites writes =>
    let (s, c, _) := state.1.applyWrites state.2 writes
    (s, c)
  | reset => (.empty, state.2)

/-- Changes that choose presets by their values alone. -/
def SetsValues : Change → Prop
  | selectPreset _ _ | clearPreset _ => False
  | _ => True

def run (c : Catalog) (changes : List Change) : Settings × Catalog :=
  changes.foldl apply (.empty, c)

end Change

namespace Settings

/-! ## Storing a value -/

/-- The label of the preset that a value chooses. -/
def labelFor? (r : Register) (menu : Menu) (v : String) : Option String :=
  (editedNumber? r v).bind fun n => (menu.presetFor? n).map (·.label)

section Store

variable (s : Settings) (c : Catalog) (r : Register) (v code : String)

theorem value?_withPreset (p : Option Preset) : (s.withPreset r p).value? code = s.value? code := by
  cases p <;> rfl

theorem isEdited_withPreset (p : Option Preset) :
    (s.withPreset r p).isEdited code = s.isEdited code := by
  cases p <;> rfl

theorem value?_record : (s.record r v).value? code =
    if code = r.code then (if v = "" then none else some v) else s.value? code := by
  unfold record value?
  by_cases hv : v = "" <;> simp [hv]

theorem isEdited_record : (s.record r v).isEdited code =
    if code = r.code then
      if hexEquals v r.defaultHex then false else if v = "" then s.isEdited code else true
    else s.isEdited code := by
  unfold record isEdited CodeMap.contains
  by_cases hcode : code = r.code <;> by_cases hequal : hexEquals v r.defaultHex <;>
    by_cases hv : v = "" <;> simp_all

theorem preset?_record : (s.record r v).preset? code =
    if code = r.code then none else s.preset? code :=
  CodeMap.get?_erase ..

theorem value?_store : (s.store c r v).1.value? code =
    if code = r.code then (if v = "" then none else some v) else s.value? code := by
  unfold store
  cases editedNumber? r v with
  | none => exact value?_record ..
  | some n => exact (value?_withPreset ..).trans (value?_record ..)

theorem isEdited_store : (s.store c r v).1.isEdited code =
    if code = r.code then
      if hexEquals v r.defaultHex then false else if v = "" then s.isEdited code else true
    else s.isEdited code := by
  unfold store
  cases editedNumber? r v with
  | none => exact isEdited_record ..
  | some n => exact (isEdited_withPreset ..).trans (isEdited_record ..)

theorem preset?_store : (s.store c r v).1.preset? code =
    if code = r.code then labelFor? r (c.menu r).1 v else s.preset? code := by
  unfold store labelFor?
  cases editedNumber? r v with
  | none => exact preset?_record ..
  | some n =>
    simp only [Option.bind_some]
    cases (c.menu r).1.presetFor? n with
    | none => exact preset?_record ..
    | some p =>
      change ((s.record r v).presets.insert r.code p.label).get? code = _
      rw [CodeMap.get?_insert]
      split
      · rfl
      · rename_i hcode
        exact (preset?_record ..).trans (if_neg hcode)

end Store

/-! ## Consistent settings -/

structure Settled (s : Settings) (r : Register) (menu : Menu) : Prop where
  ne_empty : ∀ v ∈ s.value? r.code, v ≠ ""
  canonical : ∀ v ∈ s.value? r.code, canonicalHex v = v
  isEdited_eq : ∀ v ∈ s.value? r.code, s.isEdited r.code = !hexEquals v r.defaultHex
  preset?_eq : s.preset? r.code = (s.value? r.code).bind (labelFor? r menu)

structure Consistent (s : Settings) (c : Catalog) : Prop where
  known : ∀ code, (s.value? code).isSome → ∃ r ∈ c.registers, r.code = code
  settled : ∀ r ∈ c.registers, s.Settled r (c.menu r).1

theorem consistent_empty (c : Catalog) : empty.Consistent c where
  known _ h := by cases h
  settled _ _ :=
    ⟨fun _ hv => (nomatch hv), fun _ hv => (nomatch hv), fun _ hv => (nomatch hv), rfl⟩

theorem labelFor?_empty (r : Register) (menu : Menu) : labelFor? r menu "" = none := by
  simp [labelFor?, editedNumber?]

/-- A register that a canonical value is stored for is settled, whatever was stored before. -/
theorem settled_store (s : Settings) {c : Catalog} {r : Register} {v : String}
    (hv : canonicalHex v = v) : (s.store c r v).1.Settled r (c.menu r).1 := by
  by_cases hempty : v = ""
  · subst hempty
    have hnone : (s.store c r "").1.value? r.code = none := by simp [value?_store]
    have hpreset : (s.store c r "").1.preset? r.code = none := by
      simp [preset?_store, labelFor?_empty]
    constructor <;> simp [hnone, hpreset]
  · have hsome : (s.store c r v).1.value? r.code = some v := by simp [value?_store, hempty]
    have hpreset : (s.store c r v).1.preset? r.code = labelFor? r (c.menu r).1 v := by
      simp [preset?_store]
    have hedited : (s.store c r v).1.isEdited r.code = !hexEquals v r.defaultHex := by
      cases hequal : hexEquals v r.defaultHex <;> simp [isEdited_store, hempty, hequal]
    constructor <;> simp [hsome, hpreset, hedited, hempty, hv]

theorem Settled.store_of_ne {s : Settings} {r r' : Register} {menu : Menu}
    (h : s.Settled r' menu) (hcode : r'.code ≠ r.code) (c : Catalog) (v : String) :
    (s.store c r v).1.Settled r' menu := by
  have hvalue := (s.value?_store c r v r'.code).trans (if_neg hcode)
  have hedited := (s.isEdited_store c r v r'.code).trans (if_neg hcode)
  have hpreset := (s.preset?_store c r v r'.code).trans (if_neg hcode)
  constructor
  · rw [hvalue]
    exact h.ne_empty
  · rw [hvalue]
    exact h.canonical
  · rw [hvalue, hedited]
    exact h.isEdited_eq
  · rw [hvalue, hpreset]
    exact h.preset?_eq

theorem Consistent.store {s : Settings} {c c' : Catalog} (hs : s.Consistent c) (h : c.Distinct)
    (hc : c'.Alike c) {r : Register} (hr : r ∈ c.registers) {v : String}
    (hv : canonicalHex v = v) : (s.store c' r v).1.Consistent c where
  known code hcode := by
    rw [value?_store] at hcode
    split at hcode
    · exact ⟨r, hr, Eq.symm ‹_›⟩
    · exact hs.known code hcode
  settled r' hr' := by
    by_cases hcode : r'.code = r.code
    · obtain rfl := h.eq_of_code_eq hr' hr hcode
      rw [← hc.menu r' hr']
      exact s.settled_store hv
    · exact (hs.settled r' hr').store_of_ne hcode c' v

/-! ## Lists of values -/

theorem canonicalHex_canonical (x : Scalar) : canonicalHex x.canonical = x.canonical := by
  cases x with
  | int n =>
    by_cases hn : 0 ≤ n
    · rw [Scalar.canonical, if_pos hn, canonicalHex_hexText]
    · rw [Scalar.canonical, if_neg hn]
      decide
  | text s => exact canonicalHex_canonicalHex s

/-- One value of a list is skipped, or stored for the register with its code. -/
theorem applyValue_cases (s : Settings) (c : Catalog) (summary : ApplySummary)
    (entry : String × Scalar) :
    (c.register? entry.1 = none ∨ entry.2.canonical = "") ∧
        applyValue (s, c, summary) entry =
          (s, c, { summary with skipped := summary.skipped + 1 }) ∨
      ∃ r, c.register? entry.1 = some r ∧ entry.2.canonical ≠ "" ∧
        applyValue (s, c, summary) entry =
          ((s.store c r entry.2.canonical).1, (s.store c r entry.2.canonical).2,
            { summary with applied := summary.applied + 1 }) := by
  cases hfound : c.register? entry.1 with
  | none => exact .inl ⟨.inl rfl, by simp only [applyValue, hfound]⟩
  | some r =>
    by_cases hempty : entry.2.canonical = ""
    · refine .inl ⟨.inr hempty, ?_⟩
      simp only [applyValue, hfound]
      exact if_pos hempty
    · refine .inr ⟨r, rfl, hempty, ?_⟩
      simp only [applyValue, hfound]
      exact if_neg hempty

end Settings

end RegisterImage
