import RegisterImage.Proofs.Settings.Values

/-!
# Settings from writes

What a list of writes leaves behind: for every code the value of the last write that reaches one
of its registers, and nothing for the other codes.

## Main definitions

* `DeviceWrite.Reaches`, `DeviceWrite.ReachesCode` — whether a write goes to a register, or to one
  with a code.
* `Settings.get?_writtenValues` — the last write that reaches a code decides its value.
* `Settings.Blank` — nothing is stored for a code.
* `Settings.value?_applyWrites` — what is stored for a register.
-/

namespace RegisterImage

/-- A write reaches the registers with its address and its width. -/
def DeviceWrite.Reaches (w : DeviceWrite) (r : Register) : Prop :=
  r.slot? = some w.slot

instance (w : DeviceWrite) (r : Register) : Decidable (w.Reaches r) :=
  inferInstanceAs (Decidable (_ = _))

/-- A write reaches a code when it reaches one of its registers. -/
def DeviceWrite.ReachesCode (w : DeviceWrite) (c : Catalog) (code : String) : Prop :=
  ∃ r ∈ c.registers, r.code = code ∧ w.Reaches r

instance (w : DeviceWrite) (c : Catalog) (code : String) : Decidable (w.ReachesCode c code) :=
  inferInstanceAs (Decidable (∃ r ∈ c.registers, _))

theorem Catalog.Distinct.reachesCode_iff {c : Catalog} (h : c.Distinct) {r : Register}
    (hr : r ∈ c.registers) {w : DeviceWrite} : w.ReachesCode c r.code ↔ w.Reaches r := by
  constructor
  · rintro ⟨r', hr', hcode, hreaches⟩
    obtain rfl := h.eq_of_code_eq hr' hr hcode
    exact hreaches
  · intro hreaches
    exact ⟨r, hr, rfl, hreaches⟩

namespace Settings

/-! ## Collected values -/

theorem get?_foldl_insert (rs : List Register) (x : Scalar) (found : CodeMap Scalar)
    (code : String) :
    (rs.foldl (fun found r => found.insert r.code x) found).get? code =
      if ∃ r ∈ rs, r.code = code then some x else found.get? code := by
  induction rs generalizing found with
  | nil => simp
  | cons r rs ih =>
    rw [List.foldl_cons, ih, CodeMap.get?_insert]
    by_cases hrest : ∃ r' ∈ rs, r'.code = code
    · obtain ⟨r', hr', hcode⟩ := hrest
      rw [if_pos ⟨r', hr', hcode⟩, if_pos ⟨r', List.mem_cons_of_mem _ hr', hcode⟩]
    · rw [if_neg hrest]
      by_cases hcode : code = r.code
      · rw [if_pos hcode, if_pos ⟨r, List.mem_cons_self, hcode.symm⟩]
      · rw [if_neg hcode, if_neg]
        rintro ⟨r', hr', rfl⟩
        rcases List.mem_cons.1 hr' with rfl | hr'
        · exact hcode rfl
        · exact hrest ⟨r', hr', rfl⟩

variable {c : Catalog} {r : Register}

theorem get?_collect (c : Catalog) (found : CodeMap Scalar) (w : DeviceWrite) (code : String) :
    (collect c found w).get? code =
      if w.ReachesCode c code then some (Scalar.ofWord w.value.toUInt64)
      else found.get? code := by
  have hiff : (∃ r ∈ c.matching w.slot, r.code = code) ↔ w.ReachesCode c code := by
    simp only [Catalog.matching, List.mem_filter, decide_eq_true_eq, and_assoc]
    exact exists_congr fun r => and_congr_right' and_comm
  rw [collect, get?_foldl_insert]
  exact if_congr hiff rfl rfl

/-- By induction from the last write. -/
theorem get?_writtenValues (c : Catalog) (ws : List DeviceWrite) (code : String) :
    (writtenValues c ws).get? code =
      (ws.filter (·.ReachesCode c code)).getLast?.map fun w =>
        Scalar.ofWord w.value.toUInt64 := by
  induction ws using List.reverseRecOn with
  | nil => rfl
  | append_singleton ws w ih =>
    rw [writtenValues, List.foldl_append, List.foldl_cons, List.foldl_nil, get?_collect,
      List.filter_append]
    by_cases hreaches : w.ReachesCode c code
    · rw [if_pos hreaches, List.filter_cons_of_pos (by simpa using hreaches)]
      simp
    · rw [if_neg hreaches, List.filter_cons_of_neg (by simpa using hreaches)]
      rw [List.filter_nil, List.append_nil]
      exact ih

theorem mem_codes_writtenValues_iff {ws : List DeviceWrite} {code : String} :
    code ∈ (writtenValues c ws).codes ↔ ∃ w ∈ ws, w.ReachesCode c code := by
  rw [CodeMap.mem_codes_iff, get?_writtenValues, Option.isSome_map, List.getLast?_isSome]
  simp

/-! ## Stored values -/

theorem canonical_ofWord (n : UInt64) : (Scalar.ofWord n).canonical = hexText n.toNat :=
  canonicalHex_hexText n.toNat

theorem hexText_ne_empty (n : Nat) : hexText n ≠ "" := by
  intro h
  have := congrArg String.toList h
  rw [toList_hexText] at this
  cases this

/-! ## Codes without a value -/

/-- Nothing is stored for a code. -/
structure Blank (s : Settings) (code : String) : Prop where
  value?_eq : s.value? code = none
  isEdited_eq : s.isEdited code = false
  preset?_eq : s.preset? code = none

theorem Blank.of_stored {s : Settings} {code : String} (h : s.stored code = .nothing) :
    s.Blank code :=
  ⟨congrArg Stored.value h, congrArg Stored.edited h, congrArg Stored.preset h⟩

/-! ## Settings from writes -/

/-- Every collected value is stored. -/
theorem stored_of_get?_writtenValues {ws : List DeviceWrite} {code : String} {x : Scalar}
    (h : (writtenValues c ws).get? code = some x) :
    (c.register? code).isSome ∧ x.canonical ≠ "" := by
  rw [get?_writtenValues] at h
  obtain ⟨w, hlast, rfl⟩ := Option.map_eq_some_iff.1 h
  obtain ⟨r, hr, hcode, -⟩ : w.ReachesCode c code := by
    simpa using (List.mem_filter.1 (List.mem_of_getLast? hlast)).2
  rw [canonical_ofWord]
  exact ⟨Catalog.isSome_register?_iff.2 ⟨r, hr, hcode⟩, hexText_ne_empty _⟩

theorem lastValue?_writtenValues (c : Catalog) (ws : List DeviceWrite) (code : String) :
    lastValue? (writtenValues c ws).entries code =
      (ws.filter (·.ReachesCode c code)).getLast?.map fun w => hexText w.value.toNat := by
  rw [lastValue?_of_sorted (writtenValues c ws).sorted]
  change (((writtenValues c ws).get? code).map _).filter _ = _
  rw [get?_writtenValues]
  cases (ws.filter (·.ReachesCode c code)).getLast? with
  | none => rfl
  | some w => simp [canonical_ofWord, hexText_ne_empty]

theorem lastValue?_writtenValues_of_not_reached {ws : List DeviceWrite} {code : String}
    (h : ∀ w ∈ ws, ¬w.ReachesCode c code) :
    lastValue? (writtenValues c ws).entries code = none := by
  have hnone : ws.filter (·.ReachesCode c code) = [] := List.filter_eq_nil_iff.2 (by simpa using h)
  rw [lastValue?_writtenValues, hnone]
  rfl

theorem blank_applyValues_writtenValues {ws : List DeviceWrite} {code : String}
    (h : ∀ w ∈ ws, ¬w.ReachesCode c code) :
    (applyValues c (writtenValues c ws).entries).1.Blank code := by
  refine .of_stored ?_
  rw [stored_applyValues, lastValue?_writtenValues_of_not_reached h]
  cases c.register? code <;> rfl

/-- The last write that reaches a code decides its value, whichever of its registers it is. -/
theorem value?_applyValues_writtenValues (c : Catalog) (ws : List DeviceWrite) (code : String) :
    (applyValues c (writtenValues c ws).entries).1.value? code =
      (ws.filter (·.ReachesCode c code)).getLast?.map fun w => hexText w.value.toNat := by
  rw [← lastValue?_writtenValues]
  by_cases hcode : (c.register? code).isSome
  · exact value?_applyValues hcode _
  · have hnone : ∀ w ∈ ws, ¬w.ReachesCode c code := by
      rintro w - ⟨r, hr, hself, -⟩
      exact hcode (Catalog.isSome_register?_iff.2 ⟨r, hr, hself⟩)
    rw [lastValue?_writtenValues_of_not_reached hnone]
    exact (blank_applyValues_writtenValues hnone).value?_eq

/-- What is stored for a register after writes were read back into empty settings. -/
theorem value?_applyWrites (h : c.Distinct) (hr : r ∈ c.registers) (ws : List DeviceWrite) :
    (empty.applyWrites c ws).1.value? r.code =
      (ws.filter (·.Reaches r)).getLast?.map fun w => hexText w.value.toNat := by
  have hfold : (empty.applyWrites c ws).1 = (applyValues c (writtenValues c ws).entries).1 := by
    unfold applyWrites
    simp only
    split
    · rename_i hnil
      rw [List.isEmpty_iff.1 hnil]
      rfl
    · rfl
  rw [hfold, value?_applyValues_writtenValues]
  simp only [h.reachesCode_iff hr]

end Settings

end RegisterImage
