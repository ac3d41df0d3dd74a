import RegisterImage.Proofs.Plan.Writes
import RegisterImage.Proofs.Settings.ReadBack

/-!
# Settings that agree

Settings agree on a register when they have the same value for it, or when one stores the default
and the other stores nothing. A required register is written even at its default, so that this is
what can be told from writes. It decides which edits are exported and what is compiled.

## Main definitions

* `Settings.AtDefault`, `Settings.Agree` — a register at its default, and settings that agree.
* `Settings.Agree.edit?_eq`, `Settings.Agree.contribution_eq` — the same edits and the same
  contribution.
* `Settings.Consistent.editedValues_eq`, `Settings.Consistent.compile_eq` — the same for all
  registers.
* `Settings.Settled.readBack` — the writes of a register give settings that agree on it.
-/

namespace RegisterImage

/-! ## Defaults -/

namespace Register

theorem canonicalHex_defaultHex (r : Register) : canonicalHex r.defaultHex = r.defaultHex := by
  unfold defaultHex
  cases r.initial with
  | none => decide
  | some x => exact Settings.canonicalHex_canonical x

theorem eq_defaultHex_of_hexEquals {r : Register} {v : String} (hv : canonicalHex v = v)
    (h : hexEquals v r.defaultHex) : v = r.defaultHex := by
  have hequal : canonicalHex v = canonicalHex r.defaultHex := of_decide_eq_true h
  rwa [hv, canonicalHex_defaultHex] at hequal

theorem effective?_defaultHex (r : Register) :
    r.effective? (some r.defaultHex) = r.effective? none := by
  unfold effective?
  by_cases h : r.defaultHex = "" <;> simp [Option.filter_some, h]

theorem candidate?_defaultHex (r : Register) (chosen : Option String) :
    r.candidate? (some r.defaultHex) chosen = r.candidate? none chosen := by
  rw [candidate?, effective?_defaultHex, candidate?]

theorem Effective.eq_defaultHex {r : Register} {o : Option String} {e : String}
    (h : r.Effective o e) (ho : o = none ∨ o = some r.defaultHex)
    (hrequired : r.required → r.defaultHex ≠ "") : e = r.defaultHex := by
  cases h with
  | stored _ => simpa using ho
  | initial _ _ => rfl
  | zero _ hempty hr => exact absurd hempty (hrequired hr)

/-- A value that is accepted and not the default is a number that fits. -/
theorem exists_value_of_accepts {r : Register} {v : String} {size : UInt8} (h : r.accepts v)
    (hne : ¬hexEquals v r.defaultHex) (hsize : r.width? = some size) :
    ∃ n, readHex? v = some n ∧ n ≤ sizeLimit size := by
  cases hread : readHex? v with
  | none => simp [accepts, hne, hread] at h
  | some n =>
    simp only [accepts, hne, hread, hsize, Bool.false_or, Option.all_some,
      Bool.and_eq_true, decide_eq_true_eq] at h
    exact ⟨n, rfl, h.2⟩

end Register

namespace Settings

/-! ## Registers at their defaults -/

def AtDefault (s : Settings) (r : Register) : Prop :=
  s.value? r.code = none ∨ s.value? r.code = some r.defaultHex

theorem labelFor?_defaultHex (r : Register) (menu : Menu) :
    labelFor? r menu r.defaultHex = none := by
  simp [labelFor?, editedNumber?, hexEquals]

variable {s s' : Settings} {r : Register} {menu : Menu}

theorem Settled.preset?_of_atDefault (h : s.Settled r menu) (hd : s.AtDefault r) :
    s.preset? r.code = none := by
  rw [h.preset?_eq]
  rcases hd with hvalue | hvalue
  · rw [hvalue, Option.bind_none]
  · rw [hvalue, Option.bind_some, labelFor?_defaultHex]

theorem AtDefault.candidate?_eq (h : s.AtDefault r) (chosen : Option String) :
    r.candidate? (s.value? r.code) chosen = r.candidate? none chosen := by
  rcases h with hvalue | hvalue
  · rw [hvalue]
  · rw [hvalue, Register.candidate?_defaultHex]

/-- The edit that is exported for a code. -/
def edit? (s : Settings) (code : String) : Option String :=
  if s.isEdited code then s.value? code else none

theorem Settled.edit?_of_atDefault (h : s.Settled r menu) (hd : s.AtDefault r) :
    s.edit? r.code = none := by
  unfold edit?
  rcases hd with hvalue | hvalue
  · rw [hvalue, ite_self]
  · rw [h.isEdited_eq _ hvalue]
    simp [hexEquals]

/-! ## Settings that agree -/

/-- The same value, or the default stored or not stored. -/
def Agree (s s' : Settings) (r : Register) : Prop :=
  s.value? r.code = s'.value? r.code ∨ s.AtDefault r ∧ s'.AtDefault r

theorem Agree.edit?_eq (h : s.Agree s' r) (hs : s.Settled r menu) (hs' : s'.Settled r menu) :
    s.edit? r.code = s'.edit? r.code := by
  rcases h with hvalue | ⟨hd, hd'⟩
  · unfold edit?
    cases hv : s'.value? r.code with
    | none => rw [hvalue, hv, ite_self, ite_self]
    | some v => rw [hs.isEdited_eq v (hvalue.trans hv), hs'.isEdited_eq v hv, hvalue, hv]
  · rw [hs.edit?_of_atDefault hd, hs'.edit?_of_atDefault hd']

theorem Agree.preset?_eq (h : s.Agree s' r) (hs : s.Settled r menu) (hs' : s'.Settled r menu) :
    s.preset? r.code = s'.preset? r.code := by
  rcases h with hvalue | ⟨hd, hd'⟩
  · rw [hs.preset?_eq, hs'.preset?_eq, hvalue]
  · rw [hs.preset?_of_atDefault hd, hs'.preset?_of_atDefault hd']

theorem Agree.contribution_eq (h : s.Agree s' r) (hs : s.Settled r menu)
    (hs' : s'.Settled r menu) (count : Nat) :
    r.contribution s menu count = r.contribution s' menu count := by
  have hcandidate : r.candidate? (s.value? r.code) (s.preset? r.code) =
      r.candidate? (s'.value? r.code) (s'.preset? r.code) := by
    rw [h.preset?_eq hs hs']
    rcases h with hvalue | ⟨hd, hd'⟩
    · rw [hvalue]
    · rw [hd.candidate?_eq, hd'.candidate?_eq]
  rw [Register.contribution, hcandidate]
  rfl

/-! ## One register -/

/-- The value that the writes of a register leave behind is the stored one, or the register is at
its default and stays there. -/
theorem Settled.readBack (hs : s.Settled r menu) (hplain : r.WritesItself s menu)
    {address : UInt64} (haddress : r.addressValue? = some address)
    (hrequired : r.required → r.defaultHex ≠ "")
    (haccepted : s.isEdited r.code → ∀ v ∈ s.value? r.code, r.width?.isSome ∧ r.accepts v)
    (hback : s'.value? r.code =
      (r.writes s menu).getLast?.map fun w => hexText w.value.toNat) :
    s.Agree s' r := by
  by_cases hd : s.AtDefault r
  · refine .inr ⟨hd, ?_⟩
    rcases hplain.writes_cases with hnil | ⟨e, _, n, size, write, hdue, hwrite, hlast, -⟩
    · left
      rw [hback, hnil]
      rfl
    · right
      obtain rfl := hdue.effective.eq_defaultHex hd hrequired
      have hvalue := (DeviceWrite.madeFor_of_ofAddress? hwrite).value_eq
      rw [hback, hlast, Option.map_some, ← UInt32.toNat_toUInt64, hvalue,
        ← eq_hexText_of_readHex? r.canonicalHex_defaultHex hdue.value_eq]
  · left
    obtain ⟨v, hv, hne⟩ : ∃ v, s.value? r.code = some v ∧ ¬hexEquals v r.defaultHex := by
      cases hv : s.value? r.code with
      | none => exact absurd (.inl hv) hd
      | some v =>
        refine ⟨v, rfl, fun hequal => hd (.inr ?_)⟩
        rw [hv, Register.eq_defaultHex_of_hexEquals (hs.canonical v hv) hequal]
    have hedited : s.isEdited r.code = true := by simp [hs.isEdited_eq v hv, hne]
    obtain ⟨hwidth, haccepts⟩ := haccepted hedited v hv
    obtain ⟨size, hsize⟩ := Option.isSome_iff_exists.1 hwidth
    obtain ⟨n, hn, hfits⟩ := Register.exists_value_of_accepts haccepts hne hsize
    have hdue : r.Due s (r.selected? s menu) v address n size :=
      ⟨hv ▸ .stored (hs.ne_empty v hv), haddress, hn, hsize, .inr haccepts, .changed hne⟩
    obtain ⟨write, hmade, hlast⟩ := hdue.getLast?_writes hplain hfits
    rw [hback, hlast, Option.map_some, ← UInt32.toNat_toUInt64, hmade.value_eq,
      ← eq_hexText_of_readHex? (hs.canonical v hv) hn, hv]

/-! ## Exported edits -/

theorem lookup_filterMap_keys (f : String → Option String) (es : List (String × Unit))
    (code : String) :
    ((es.map (·.1)).filterMap fun k => (f k).map (k, ·)).lookup code =
      if (es.lookup code).isSome then f code else none := by
  induction es with
  | nil => rfl
  | cons e es ih =>
    obtain ⟨k, u⟩ := e
    rw [List.map_cons, List.lookup_cons]
    by_cases hself : code = k
    · subst hself
      cases hf : f code with
      | none =>
        rw [List.filterMap_cons_none (by simp [hf]), ih, hf, ite_self, ite_self]
      | some v => simp [hf]
    · cases hf : f k with
      | none => rw [List.filterMap_cons_none (by simp [hf]), ih, beq_false_of_ne hself]
      | some v =>
        rw [List.filterMap_cons_some (by simp [hf]; rfl), List.lookup_cons,
          beq_false_of_ne hself, ih]

theorem lookup_editedValues (s : Settings) (code : String) :
    s.editedValues.lookup code = s.edit? code :=
  lookup_filterMap_keys s.value? s.edited.entries code

theorem sorted_editedValues (s : Settings) :
    s.editedValues.Pairwise fun a b => a.1 < b.1 := by
  have hcodes : s.edited.codes.Pairwise (· < ·) := List.pairwise_map.2 s.edited.sorted
  refine List.Pairwise.filterMap _ (fun a b hlt x hx y hy => ?_) hcodes
  obtain ⟨v, -, rfl⟩ := Option.map_eq_some_iff.1 hx
  obtain ⟨w, -, rfl⟩ := Option.map_eq_some_iff.1 hy
  exact hlt

theorem editedValues_congr (h : ∀ code, s.edit? code = s'.edit? code) :
    s.editedValues = s'.editedValues :=
  Sorted.ext_lookup s.sorted_editedValues s'.sorted_editedValues fun code => by
    rw [lookup_editedValues, lookup_editedValues, h]

theorem Consistent.edit?_of_unknown {c : Catalog} (h : s.Consistent c) {code : String}
    (hcode : ¬∃ r ∈ c.registers, r.code = code) : s.edit? code = none := by
  have hnone : s.value? code = none := by
    by_contra hsome
    exact hcode (h.known code (Option.isSome_iff_ne_none.2 hsome))
  rw [edit?, hnone, ite_self]

/-! ## Settings that agree on every register -/

section Consistent

variable {c : Catalog} (hs : s.Consistent c) (hs' : s'.Consistent c)
  (h : ∀ r ∈ c.registers, s.Agree s' r)
include hs hs' h

theorem Consistent.editedValues_eq : s.editedValues = s'.editedValues := by
  refine editedValues_congr fun code => ?_
  by_cases hcode : ∃ r ∈ c.registers, r.code = code
  · obtain ⟨r, hr, rfl⟩ := hcode
    exact (h r hr).edit?_eq (hs.settled r hr) (hs'.settled r hr)
  · rw [hs.edit?_of_unknown hcode, hs'.edit?_of_unknown hcode]

theorem Consistent.compile_eq (hc : c.Distinct) : (c.compile s).1 = (c.compile s').1 := by
  have hentries : (c.compile s).1.entries = (c.compile s').1.entries := by
    rw [hc.compile_entries, hc.compile_entries]
    exact contributions_congr
      (fun r hr => (h r hr).contribution_eq (hs.settled r hr) (hs'.settled r hr)) 0
  calc (c.compile s).1 = ⟨(c.compile s).1.entries, c.opening, c.closing⟩ := rfl
    _ = (c.compile s').1 := by
      rw [hentries]
      rfl

end Consistent

end Settings

end RegisterImage
