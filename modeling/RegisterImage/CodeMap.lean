/-!
# Maps keyed by register codes

A finite map from codes to values, held as a list in ascending order of the codes. There is one
list for each map, so that maps with the same values are equal.

## Main definitions

* `CodeMap` — a map.
* `CodeMap.get?`, `CodeMap.insert`, `CodeMap.erase` — one value read, set and removed.
* `CodeMap.ext_get?` — maps with the same values are equal.
-/

namespace RegisterImage

variable {α : Type}

/-! ## Sorted lists -/

namespace Sorted

def insert (code : String) (value : α) : List (String × α) → List (String × α)
  | [] => [(code, value)]
  | e :: es =>
    if code < e.1 then (code, value) :: e :: es
    else if e.1 < code then e :: insert code value es
    else (code, value) :: es

def erase (code : String) (es : List (String × α)) : List (String × α) :=
  es.filter fun e => e.1 ≠ code

theorem mem_insert {code : String} {value : α} {es : List (String × α)} {e : String × α}
    (h : e ∈ insert code value es) : e = (code, value) ∨ e ∈ es := by
  induction es with
  | nil => simpa [insert] using h
  | cons e' es ih =>
    unfold insert at h
    split at h
    · simpa using h
    · split at h
      · rcases List.mem_cons.1 h with rfl | h
        · simp
        · rcases ih h with rfl | h <;> simp [*]
      · rcases List.mem_cons.1 h with rfl | h <;> simp [*]

theorem eq_of_not_lt {a b : String} (h : ¬a < b) (h' : ¬b < a) : a = b :=
  String.le_antisymm (String.not_lt.1 h') (String.not_lt.1 h)

theorem insert_sorted {code : String} {value : α} {es : List (String × α)}
    (h : es.Pairwise fun a b => a.1 < b.1) :
    (insert code value es).Pairwise fun a b => a.1 < b.1 := by
  induction es with
  | nil => simp [insert]
  | cons e es ih =>
    obtain ⟨he, hes⟩ := List.pairwise_cons.1 h
    unfold insert
    split
    · rename_i hlt
      refine List.pairwise_cons.2 ⟨fun e' he' => ?_, h⟩
      rcases List.mem_cons.1 he' with rfl | he'
      · exact hlt
      · exact String.lt_trans hlt (he e' he')
    · split
      · rename_i hlt
        refine List.pairwise_cons.2 ⟨fun e' he' => ?_, ih hes⟩
        rcases mem_insert he' with rfl | he'
        · exact hlt
        · exact he e' he'
      · rename_i h1 h2
        refine List.pairwise_cons.2 ⟨fun e' he' => ?_, hes⟩
        exact eq_of_not_lt h1 h2 ▸ he e' he'

theorem lookup_insert (code : String) (value : α) (es : List (String × α)) (k : String) :
    (insert code value es).lookup k = if k = code then some value else es.lookup k := by
  induction es with
  | nil => by_cases h : k = code <;> simp [insert, List.lookup_cons, h, beq_false_of_ne]
  | cons e es ih =>
    obtain ⟨k', v⟩ := e
    unfold insert
    split
    · by_cases h : k = code
      · simp [h]
      · rw [List.lookup_cons, beq_false_of_ne h]
        simp [h]
    · split
      · rename_i hlt
        by_cases h : k = k'
        · subst h
          have : k ≠ code := fun h => String.lt_irrefl _ (h ▸ hlt)
          simp [this]
        · simp [List.lookup_cons, beq_false_of_ne h, ih]
      · rename_i h1 h2
        obtain rfl := eq_of_not_lt h1 h2
        by_cases h : k = code <;> simp [List.lookup_cons, h, beq_false_of_ne]

theorem lookup_erase (code : String) (es : List (String × α)) (k : String) :
    (erase code es).lookup k = if k = code then none else es.lookup k := by
  induction es with
  | nil => simp [erase]
  | cons e es ih =>
    obtain ⟨k', v⟩ := e
    unfold erase at ih ⊢
    by_cases h : k' = code
    · rw [List.filter_cons_of_neg (by simpa using h), ih]
      by_cases hk : k = code
      · simp [hk]
      · simp [List.lookup_cons, hk, beq_false_of_ne (h ▸ hk : k ≠ k')]
    · rw [List.filter_cons_of_pos (by simpa using h)]
      by_cases hk : k = k'
      · subst hk
        simp [h]
      · simpa [List.lookup_cons, beq_false_of_ne hk] using ih

theorem lookup_eq_none {es : List (String × α)} {k : String} (h : ∀ e ∈ es, k < e.1) :
    es.lookup k = none := by
  induction es with
  | nil => rfl
  | cons e es ih =>
    have hne : k ≠ e.1 := fun hk => String.lt_irrefl _ (hk ▸ h e (by simp))
    rw [List.lookup_cons, beq_false_of_ne hne]
    exact ih fun e' he' => h e' (List.mem_cons_of_mem _ he')

theorem lookup_of_mem {es : List (String × α)} (h : es.Pairwise fun a b => a.1 < b.1)
    {e : String × α} (he : e ∈ es) : es.lookup e.1 = some e.2 := by
  induction es with
  | nil => cases he
  | cons e' es ih =>
    obtain ⟨hlt, hrest⟩ := List.pairwise_cons.1 h
    rcases List.mem_cons.1 he with rfl | he
    · exact List.lookup_cons_self
    · have hne : e.1 ≠ e'.1 := fun hk => String.lt_irrefl _ (hk ▸ hlt e he)
      rw [List.lookup_cons, beq_false_of_ne hne]
      exact ih hrest he

theorem ext_lookup {es fs : List (String × α)} (he : es.Pairwise fun a b => a.1 < b.1)
    (hf : fs.Pairwise fun a b => a.1 < b.1) (h : ∀ k, es.lookup k = fs.lookup k) : es = fs := by
  induction es generalizing fs with
  | nil =>
    cases fs with
    | nil => rfl
    | cons f fs =>
      obtain ⟨k, v⟩ := f
      simpa using h k
  | cons e es ih =>
    obtain ⟨k, v⟩ := e
    cases fs with
    | nil => simpa using h k
    | cons f fs =>
      obtain ⟨k', v'⟩ := f
      obtain ⟨he1, he2⟩ := List.pairwise_cons.1 he
      obtain ⟨hf1, hf2⟩ := List.pairwise_cons.1 hf
      have hk : k = k' := by
        apply eq_of_not_lt <;> intro hlt
        · have := h k
          have hnone : List.lookup k ((k', v') :: fs) = none := lookup_eq_none fun e' he' => by
            rcases List.mem_cons.1 he' with rfl | he'
            · exact hlt
            · exact String.lt_trans hlt (hf1 e' he')
          simp [hnone] at this
        · have := h k'
          have hnone : List.lookup k' ((k, v) :: es) = none := lookup_eq_none fun e' he' => by
            rcases List.mem_cons.1 he' with rfl | he'
            · exact hlt
            · exact String.lt_trans hlt (he1 e' he')
          simp [hnone] at this
      subst hk
      have hv : v = v' := by simpa using h k
      subst hv
      rw [ih he2 hf2 fun k' => ?_]
      by_cases hk : k' = k
      · subst hk
        rw [lookup_eq_none he1, lookup_eq_none hf1]
      · simpa [List.lookup_cons, beq_false_of_ne hk] using h k'

end Sorted

/-! ## Maps -/

structure CodeMap (α : Type) where
  entries : List (String × α)
  sorted : entries.Pairwise fun a b => a.1 < b.1

namespace CodeMap

def empty : CodeMap α :=
  ⟨[], .nil⟩

instance : EmptyCollection (CodeMap α) := ⟨empty⟩

instance : Inhabited (CodeMap α) := ⟨empty⟩

def get? (m : CodeMap α) (code : String) : Option α :=
  m.entries.lookup code

def contains (m : CodeMap α) (code : String) : Bool :=
  (m.get? code).isSome

def insert (m : CodeMap α) (code : String) (value : α) : CodeMap α :=
  ⟨Sorted.insert code value m.entries, Sorted.insert_sorted m.sorted⟩

def erase (m : CodeMap α) (code : String) : CodeMap α :=
  ⟨Sorted.erase code m.entries, m.sorted.filter _⟩

def codes (m : CodeMap α) : List String :=
  m.entries.map (·.1)

def size (m : CodeMap α) : Nat :=
  m.entries.length

@[simp] theorem get?_empty (code : String) : (∅ : CodeMap α).get? code = none := rfl

@[simp] theorem get?_insert (m : CodeMap α) (code : String) (value : α) (k : String) :
    (m.insert code value).get? k = if k = code then some value else m.get? k :=
  Sorted.lookup_insert ..

@[simp] theorem get?_erase (m : CodeMap α) (code k : String) :
    (m.erase code).get? k = if k = code then none else m.get? k :=
  Sorted.lookup_erase ..

theorem mem_codes_iff {m : CodeMap α} {code : String} :
    code ∈ m.codes ↔ (m.get? code).isSome := by
  simp only [codes, List.mem_map, get?, List.lookup_isSome_iff, beq_iff_eq]
  exact exists_congr fun e => and_congr_right' eq_comm

theorem nodup_codes (m : CodeMap α) : m.codes.Nodup :=
  List.pairwise_map.2 (m.sorted.imp fun hlt => String.ne_of_lt hlt)

theorem ext_get? {m n : CodeMap α} (h : ∀ code, m.get? code = n.get? code) : m = n := by
  obtain ⟨es, he⟩ := m
  obtain ⟨fs, hf⟩ := n
  obtain rfl : es = fs := Sorted.ext_lookup he hf h
  rfl

end CodeMap

end RegisterImage
