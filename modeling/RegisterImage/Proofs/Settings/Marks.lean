import RegisterImage.Proofs.Settings.Agree
import RegisterImage.Proofs.Settings.Edits

/-!
# Edit marks

When a register is marked as edited after values were given to it in any order. The mark is that
of the last value given, except that a blank value leaves the mark of a register with a default
as it was.

## Main definitions

* `Change.given` — the values that a run of changes gives to a register.
* `Settings.Marked` — what the values given say about value and mark of a register.
* `Register.BlankedEdit` — an edit was followed by blank values and by nothing else.
* `Change.isEdited_iff_changed_iff` — the mark tells whether the value differs from the default,
  unless an edit was blanked.
-/

namespace RegisterImage

/-! ## Values that are given -/

/-- The values given to a register since everything was cleared, after one more edit. -/
def Edit.give (code : String) (given : List String) : Edit → List String
  | clear => []
  | store code' canonical => if code' = code then given ++ [canonical] else given
  | choose _ _ | release _ => given

def Change.given (c : Catalog) (changes : List Change) (code : String) : List String :=
  (changes.flatMap (edits c)).foldl (Edit.give code) []

namespace Register

/-- The values that decide the mark. A blank one does so only where the default is blank. -/
def decisive (r : Register) (given : List String) : List String :=
  given.filter fun v => v ≠ "" ∨ r.defaultHex = ""

/-- The last value given is blank, and the last one that decided the mark is an edit. -/
def BlankedEdit (r : Register) (given : List String) : Prop :=
  given.getLast? = some "" ∧ ∃ v ∈ (r.decisive given).getLast?, ¬hexEquals v r.defaultHex

theorem hexEquals_empty_defaultHex (r : Register) :
    hexEquals "" r.defaultHex = decide (r.defaultHex = "") := by
  rw [hexEquals, canonicalHex_defaultHex, show canonicalHex "" = "" by decide]
  exact decide_eq_decide.2 eq_comm

theorem decisive_concat (r : Register) (given : List String) (v : String) :
    r.decisive (given ++ [v]) =
      if v ≠ "" ∨ r.defaultHex = "" then r.decisive given ++ [v] else r.decisive given := by
  unfold decisive
  by_cases h : v ≠ "" ∨ r.defaultHex = "" <;> simp [List.filter_append, h]

end Register

namespace Settings

/-- The last value given is the value, and the last one that decides the mark does decide it. -/
structure Marked (s : Settings) (r : Register) (given : List String) : Prop where
  value?_eq : s.value? r.code = given.getLast?.filter (· ≠ "")
  isEdited_eq :
    s.isEdited r.code = (r.decisive given).getLast?.any fun v => !hexEquals v r.defaultHex

variable {s : Settings} {r : Register} {given : List String}

/-! ## One edit -/

theorem Marked.store (h : s.Marked r given) (c : Catalog) (v : String) :
    (s.store c r v).1.Marked r (given ++ [v]) := by
  constructor
  · rw [value?_store, if_pos rfl, List.getLast?_concat, Option.filter_some]
    by_cases hv : v = "" <;> simp [hv]
  · rw [isEdited_store, if_pos rfl, r.decisive_concat]
    by_cases hv : v = ""
    · subst hv
      rw [r.hexEquals_empty_defaultHex]
      by_cases hdefault : r.defaultHex = ""
      · simp [hdefault, hexEquals]
      · simpa [hdefault] using h.isEdited_eq
    · cases hequal : hexEquals v r.defaultHex <;> simp [hv, hequal]

theorem Marked.store_of_ne (h : s.Marked r given) {r' : Register} (hcode : r'.code ≠ r.code)
    (c : Catalog) (v : String) : (s.store c r' v).1.Marked r given := by
  constructor
  · rw [value?_store, if_neg hcode.symm, h.value?_eq]
  · rw [isEdited_store, if_neg hcode.symm, h.isEdited_eq]

theorem Marked.apply {state : Settings × Catalog} (h : state.1.Marked r given)
    (hr : state.2.register? r.code = some r) {e : Edit} (he : e.SetsValue) :
    (e.apply state).1.Marked r (e.give r.code given) := by
  cases e with
  | clear => exact ⟨rfl, rfl⟩
  | store code v =>
    rw [Edit.give]
    cases hfound : state.2.register? code with
    | none =>
      have hcode : code ≠ r.code := by
        rintro rfl
        simp [hr] at hfound
      rw [Edit.apply_store_of_unknown hfound, if_neg hcode]
      exact h
    | some r' =>
      have hcode' : r'.code = code := (Catalog.mem_of_register? hfound).2
      rw [Edit.apply_store_of_register? hfound]
      by_cases hcode : code = r.code
      · subst hcode
        obtain rfl := Option.some.inj (hr.symm.trans hfound)
        rw [if_pos rfl]
        exact h.store state.2 v
      · rw [if_neg hcode]
        exact h.store_of_ne (hcode' ▸ hcode) state.2 v
  | choose code label | release code => exact he.elim

theorem known_apply {state : Settings × Catalog}
    (h : ∀ code, state.1.isEdited code → (state.2.register? code).isSome) {e : Edit}
    (he : e.SetsValue) (code : String) (hedited : (e.apply state).1.isEdited code) :
    (state.2.register? code).isSome := by
  cases e with
  | clear => cases hedited
  | store code' v =>
    cases hfound : state.2.register? code' with
    | none =>
      rw [Edit.apply_store_of_unknown hfound] at hedited
      exact h code hedited
    | some r' =>
      rw [Edit.apply_store_of_register? hfound, isEdited_store] at hedited
      split at hedited
      · rename_i hcode
        rw [hcode, (Catalog.mem_of_register? hfound).2, hfound]
        rfl
      · exact h code hedited
  | choose code' label | release code' => exact he.elim

/-! ## Marks and values -/

/-- By cases on the last value given and on whether it decides the mark. -/
theorem Marked.truthful_iff (h : s.Marked r given) :
    ((s.isEdited r.code = true ↔ ¬hexEquals (s.current r) r.defaultHex) ↔
      ¬r.BlankedEdit given) := by
  have hself : hexEquals r.defaultHex r.defaultHex = true := decide_eq_true rfl
  rw [current, h.value?_eq, h.isEdited_eq, Register.BlankedEdit]
  rcases given.eq_nil_or_concat with rfl | ⟨init, v, rfl⟩
  · simp [Register.decisive, hself]
  · rw [List.concat_eq_append, List.getLast?_concat, r.decisive_concat, Option.filter_some]
    by_cases hv : v = ""
    · subst hv
      by_cases hdefault : r.defaultHex = ""
      · simp [hdefault, hexEquals]
      · simp [hdefault, hself, Option.any_eq_true]
    · simp [hv]

theorem Marked.isSome_value?_iff (h : s.Marked r given) :
    (s.isEdited r.code = true → (s.value? r.code).isSome) ↔ ¬r.BlankedEdit given := by
  rw [h.value?_eq, h.isEdited_eq, Register.BlankedEdit]
  rcases given.eq_nil_or_concat with rfl | ⟨init, v, rfl⟩
  · simp [Register.decisive]
  · rw [List.concat_eq_append, List.getLast?_concat, Option.filter_some]
    by_cases hv : v = "" <;> simp [hv, Option.any_eq_true]

theorem isEdited_of_mem_codes {code : String} (h : code ∈ s.edited.codes) :
    s.isEdited code = true :=
  CodeMap.mem_codes_iff.1 h

/-- Every edit is exported when every edit has a value. -/
theorem map_fst_editedValues (h : ∀ code, s.isEdited code → (s.value? code).isSome) :
    s.editedValues.map Prod.fst = s.edited.codes := by
  rw [editedValues, List.map_filterMap]
  refine (List.filterMap_congr fun code hcode => ?_).trans List.filterMap_some
  obtain ⟨v, hv⟩ := Option.isSome_iff_exists.1 (h code (isEdited_of_mem_codes hcode))
  simp [hv]

end Settings

/-! ## Runs -/

namespace Change

variable {c : Catalog} {changes : List Change}

/-- By induction on the edits of the changes. -/
theorem marked_run (h : ∀ change ∈ changes, change.SetsValues) {r : Register}
    (hr : c.register? r.code = some r) :
    (run c changes).1.Marked r (given c changes r.code) := by
  have hedits := setsValue_of_mem_edits (c := c) h
  rw [run_eq_foldl, given]
  generalize changes.flatMap (edits c) = es at hedits
  induction es using List.reverseRecOn with
  | nil => exact ⟨rfl, rfl⟩
  | append_singleton es e ih =>
    have hregister : (es.foldl Edit.apply (.empty, c)).2.register? r.code = some r :=
      (Edit.register?_foldl (.empty, c) es r.code).trans hr
    rw [List.foldl_append, List.foldl_append]
    exact (ih fun e he => hedits e (List.mem_append_left _ he)).apply hregister
      (hedits e (by simp))

theorem known_run (h : ∀ change ∈ changes, change.SetsValues) (code : String)
    (hedited : (run c changes).1.isEdited code) : (c.register? code).isSome := by
  have hedits := setsValue_of_mem_edits (c := c) h
  rw [run_eq_foldl] at hedited
  generalize changes.flatMap (edits c) = es at hedits hedited
  induction es using List.reverseRecOn generalizing code with
  | nil => cases hedited
  | append_singleton es e ih =>
    rw [List.foldl_append] at hedited
    rw [← Edit.register?_foldl (.empty, c) es code]
    refine Settings.known_apply (fun code hcode => ?_) (hedits e (by simp)) code hedited
    rw [Edit.register?_foldl]
    exact ih code (fun e he => hedits e (List.mem_append_left _ he)) hcode

/-- The mark of a register tells whether its value differs from the default, as long as no edit
was blanked: a blanked one is still marked, without a value to export. -/
theorem isEdited_iff_changed_iff (h : ∀ change ∈ changes, change.SetsValues) :
    let s := (run c changes).1
    let blanked (code : String) (r : Register) := r.BlankedEdit (given c changes code)
    (∀ code r, c.register? code = some r →
      ((s.isEdited code = true ↔ ¬hexEquals (s.current r) r.defaultHex) ↔ ¬blanked code r)) ∧
    ((∀ code, s.isEdited code → (s.value? code).isSome) ↔
      ∀ code r, c.register? code = some r → ¬blanked code r) ∧
    ((∀ code r, c.register? code = some r → ¬blanked code r) →
      s.editedValues.map Prod.fst = s.edited.codes) := by
  intro s blanked
  have hmarked {code : String} {r : Register} (hr : c.register? code = some r) :
      s.Marked r (given c changes code) ∧ r.code = code := by
    obtain rfl := (Catalog.mem_of_register? hr).2
    exact ⟨marked_run h hr, rfl⟩
  have hvalued : (∀ code, s.isEdited code → (s.value? code).isSome) ↔
      ∀ code r, c.register? code = some r → ¬blanked code r := by
    constructor
    · intro hvalue code r hr
      obtain ⟨hmarked, rfl⟩ := hmarked hr
      exact hmarked.isSome_value?_iff.1 (hvalue r.code)
    · intro hblanked code hedited
      obtain ⟨r, hr⟩ := Option.isSome_iff_exists.1 (known_run h code hedited)
      obtain ⟨hmarked, rfl⟩ := hmarked hr
      exact hmarked.isSome_value?_iff.2 (hblanked r.code r hr) hedited
  refine ⟨fun code r hr => ?_, hvalued, fun hblanked => ?_⟩
  · obtain ⟨hmarked, rfl⟩ := hmarked hr
    exact hmarked.truthful_iff
  · exact Settings.map_fst_editedValues (hvalued.2 hblanked)

/-- An edit that is taken back, and one that is blanked and then made again. -/
theorem isEdited_iff_changed_of_reverted :
    let lane : Register := ⟨"LANE", none, none, .text "0x400", some (.int 1), some (.text "0x5"),
      none, false, .plain, none, none, none, none⟩
    let mode : Register := ⟨"MODE", none, none, .text "0x404", some (.int 1), none,
      none, false, .plain, none, none, none, none⟩
    let c : Catalog := ⟨.null, [lane, mode], none, none, []⟩
    let changes : List Change := [.applyValues [("LANE", .text "7"), ("LOST", .int 1)],
      .setValue "LANE" "05", .setValue "MODE" "3", .setValue "MODE" "zz", .setValue "MODE" "4",
      .applyWrites []]
    let s := (run c changes).1
    (∀ change ∈ changes, change.SetsValues) ∧
      given c changes "LANE" = ["0x7", "0x5"] ∧ given c changes "MODE" = ["0x3", "", "0x4"] ∧
      (∀ code r, c.register? code = some r → ¬r.BlankedEdit (given c changes code)) ∧
      (∀ code r, c.register? code = some r →
        (s.isEdited code = true ↔ ¬hexEquals (s.current r) r.defaultHex)) ∧
      s.editedValues.map Prod.fst = ["MODE"] := by
  intro lane mode c changes s
  have hchanges : ∀ change ∈ changes, change.SetsValues := by
    simp [changes, Change.SetsValues]
  have hlane : given c changes "LANE" = ["0x7", "0x5"] := by cbv
  have hmode : given c changes "MODE" = ["0x3", "", "0x4"] := by cbv
  have hcodes : s.edited.codes = ["MODE"] := by decide
  have hblanked : ∀ code r, c.register? code = some r → ¬r.BlankedEdit (given c changes code) := by
    rintro code r hr ⟨hlast, -⟩
    obtain ⟨hmem, rfl⟩ := Catalog.mem_of_register? hr
    rcases List.mem_cons.1 hmem with rfl | hmem
    · simp [lane, hlane] at hlast
    · obtain rfl := List.mem_singleton.1 hmem
      simp [mode, hmode] at hlast
  obtain ⟨hmarks, -, hexported⟩ := isEdited_iff_changed_iff (c := c) hchanges
  exact ⟨hchanges, hlane, hmode, hblanked,
    fun code r hr => (hmarks code r hr).2 (hblanked code r hr),
    (hexported hblanked).trans hcodes⟩

/-- A blank value after an edit takes the value and leaves the mark. -/
theorem isEdited_of_blanked :
    ∃ c r, Catalog.ofDocument (.obj [("groups", .arr [.obj [("code", .str "g"), ("items", .arr
        [.obj [("code", .str "R"), ("address", .str "0x400"), ("size_bytes", .int 1),
          ("default", .str "0x5")]])]])]) = .ok c ∧
      c.register? "R" = some r ∧
      let s := (run c [.setValue "R" "7", .setValue "R" " "]).1
      s.isEdited "R" = true ∧ s.value? "R" = none ∧ hexEquals (s.current r) r.defaultHex ∧
        s.edited.codes = ["R"] ∧ s.editedValues = [] := by
  let r : Register := ⟨"R", none, none, .text "0x400", some (.int 1), some (.text "0x5"), none,
    false, .plain, none, none, none, none⟩
  exact ⟨⟨_, [r], none, none, []⟩, r, by cbv, rfl, by decide⟩

end Change

end RegisterImage
