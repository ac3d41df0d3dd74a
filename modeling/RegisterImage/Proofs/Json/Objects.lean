import Mathlib
import RegisterImage.CodeMap
import RegisterImage.Json.Basic

/-!
# Objects as maps

The entries of an object are a list, but with distinct keys they are read as a map. Entries are
inserted and removed without making a key occur twice, objects that answer every key alike have the
same entries, and entries that are there already change nothing when they are inserted again.

## Main definitions

* `Entries.keys` — the keys in order.
* `Json.UniqueKeys` — no object of a document has a key twice.
* `Entries.ext_find?`, `Entries.perm_of_find?` — equality and permutation by look-up.
* `Json.SameEntries` — documents that differ at most in the order of their own entries.
-/

namespace RegisterImage

namespace Entries

def keys (es : Entries) : List String :=
  es.map (·.1)

/-! ## Look-up -/

theorem mem_keys_iff {es : Entries} {k : String} : k ∈ keys es ↔ (find? es k).isSome := by
  simp [keys, find?]

theorem find?_eq_none_iff {es : Entries} {k : String} : find? es k = none ↔ k ∉ keys es := by
  simp [mem_keys_iff]

theorem mem_of_find? {es : Entries} {k : String} {v : Json} (h : find? es k = some v) :
    (k, v) ∈ es := by
  obtain ⟨before, after, rfl, -⟩ := List.lookup_eq_some_iff.1 h
  simp

theorem find?_eq_some_iff {es : Entries} (hes : (keys es).Nodup) {k : String} {v : Json} :
    find? es k = some v ↔ (k, v) ∈ es := by
  refine ⟨mem_of_find?, fun h => ?_⟩
  obtain ⟨w, hw⟩ := Option.isSome_iff_exists.1 (mem_keys_iff.1 (List.mem_map_of_mem h))
  have heq := List.inj_on_of_nodup_map hes h (mem_of_find? hw) rfl
  rw [hw, (Prod.mk.inj heq).2]

/-- Objects with the same keys in the same order and the same values are equal. -/
theorem ext_find? {es fs : Entries} (hkeys : keys es = keys fs) (hes : (keys es).Nodup)
    (h : ∀ k, find? es k = find? fs k) : es = fs := by
  induction es generalizing fs with
  | nil => exact (List.map_eq_nil_iff.1 hkeys.symm).symm
  | cons e es ih =>
    cases fs with
    | nil => cases hkeys
    | cons f fs =>
      obtain ⟨k, v⟩ := e
      obtain ⟨k', v'⟩ := f
      obtain ⟨rfl, hrest⟩ := List.cons.inj hkeys
      obtain ⟨hk, hnodup⟩ := List.nodup_cons.1 hes
      have hv : v = v' := by simpa using h k
      subst hv
      rw [ih hrest hnodup fun k' => ?_]
      by_cases hk' : k' = k
      · subst hk'
        rw [find?_eq_none_iff.2 hk, find?_eq_none_iff.2 fun hmem => hk (hrest ▸ hmem)]
      · simpa [hk'] using h k'

theorem perm_of_find? {es fs : Entries} (hes : (keys es).Nodup) (hfs : (keys fs).Nodup)
    (h : ∀ k, find? es k = find? fs k) : es.Perm fs := by
  refine (List.perm_ext_iff_of_nodup (.of_map _ hes) (.of_map _ hfs)).2 fun e => ?_
  obtain ⟨k, v⟩ := e
  rw [← find?_eq_some_iff hes, ← find?_eq_some_iff hfs, h]

/-! ## Insertion -/

theorem keys_insert (key : String) (value : Json) (es : Entries) :
    keys (insert key value es) = if key ∈ keys es then keys es else keys es ++ [key] := by
  induction es with
  | nil => simp [keys, insert]
  | cons e es ih =>
    unfold keys at ih ⊢
    by_cases h : e.1 = key
    · simp [insert, h]
    · by_cases hmem : key ∈ es.map (·.1) <;> simp_all [insert, Ne.symm h]

theorem nodup_keys_insert {es : Entries} (hes : (keys es).Nodup) (key : String) (value : Json) :
    (keys (insert key value es)).Nodup := by
  rw [keys_insert]
  split
  · exact hes
  · rename_i h
    exact List.nodup_append.2 ⟨hes, List.nodup_singleton _, by simp; rintro _ ha rfl; exact h ha⟩

theorem insert_of_find? {es : Entries} {key : String} {value : Json}
    (h : find? es key = some value) : insert key value es = es := by
  induction es with
  | nil => simp at h
  | cons e es ih =>
    obtain ⟨k, v⟩ := e
    rw [find?_cons] at h
    by_cases hk : key = k
    · simp_all [insert]
    · rw [if_neg hk] at h
      rw [insert, if_neg (Ne.symm hk), ih h]

/-! ## Insertion of many entries -/

/-- The entries of `fs` inserted one after the other. -/
def insertAll (es fs : Entries) : Entries :=
  fs.foldl (fun es e => insert e.1 e.2 es) es

theorem find?_insertAll (es : Entries) {fs : Entries} (hfs : (keys fs).Nodup) (k : String) :
    find? (insertAll es fs) k = (find? fs k).or (find? es k) := by
  induction fs generalizing es with
  | nil => rfl
  | cons f fs ih =>
    obtain ⟨key, value⟩ := f
    obtain ⟨hkey, hrest⟩ := List.nodup_cons.1 hfs
    change find? (insertAll (insert key value es) fs) k = _
    rw [ih _ hrest, find?_insert, find?_cons]
    by_cases hk : k = key
    · subst hk
      simp [find?_eq_none_iff.2 hkey]
    · simp [hk]

theorem nodup_keys_insertAll {es : Entries} (hes : (keys es).Nodup) (fs : Entries) :
    (keys (insertAll es fs)).Nodup :=
  List.foldlRecOn (motive := fun es : Entries => (keys es).Nodup) fs _ hes
    fun _ h e _ => nodup_keys_insert h e.1 e.2

/-- Keys that are all there already stay in their order. -/
theorem keys_insertAll {es fs : Entries} (h : ∀ k ∈ keys fs, k ∈ keys es) :
    keys (insertAll es fs) = keys es := by
  induction fs generalizing es with
  | nil => rfl
  | cons f fs ih =>
    obtain ⟨hf, hfs⟩ := List.forall_mem_cons.1 h
    have hkeys : keys (insert f.1 f.2 es) = keys es := by rw [keys_insert, if_pos hf]
    exact (ih fun k hk => hkeys ▸ hfs k hk).trans hkeys

theorem insertAll_eq_self {es fs : Entries} (h : ∀ e ∈ fs, find? es e.1 = some e.2) :
    insertAll es fs = es := by
  induction fs with
  | nil => rfl
  | cons f fs ih =>
    obtain ⟨hf, hfs⟩ := List.forall_mem_cons.1 h
    change insertAll (insert f.1 f.2 es) fs = es
    rw [insert_of_find? hf, ih hfs]

/-! ## Removal -/

/-- One entry of distinct ones is replaced by one that comes after them. -/
theorem perm_replaced {es : Entries} (hes : (keys es).Nodup) {key : String} (hkey : key ∈ keys es)
    (last : String × Json) :
    (es.map fun e => if e.1 = key then last else e).Perm (es.filter (·.1 ≠ key) ++ [last]) := by
  induction es with
  | nil => cases hkey
  | cons e es ih =>
    obtain ⟨he, hrest⟩ := List.nodup_cons.1 hes
    by_cases h : e.1 = key
    · have hne : ∀ e' ∈ es, e'.1 ≠ key := fun e' he' heq =>
        he (List.mem_map.2 ⟨e', he', heq.trans h.symm⟩)
      have hmap : (es.map fun e => if e.1 = key then last else e) = es :=
        (List.map_congr_left fun e' he' => if_neg (hne e' he')).trans (List.map_id _)
      rw [List.map_cons, if_pos h, hmap, List.filter_cons_of_neg (by simpa using h),
        List.filter_eq_self.2 fun e' he' => by simpa using hne e' he']
      exact (List.perm_append_singleton last es).symm
    · have hmem : key ∈ keys es := (List.mem_cons.1 hkey).resolve_left (Ne.symm h)
      rw [List.map_cons, if_neg h, List.filter_cons_of_pos (by simpa using h), List.cons_append]
      exact (ih hrest hmem).cons e

/-- Apart from its order, a removal leaves the other entries. -/
theorem perm_remove {es : Entries} (hes : (keys es).Nodup) (key : String) :
    (remove es key).Perm (es.filter (·.1 ≠ key)) := by
  unfold remove
  cases hlast : es.getLast? with
  | none => simp [List.getLast?_eq_none_iff.1 hlast]
  | some last =>
    obtain ⟨init, rfl⟩ := List.getLast?_eq_some_iff.1 hlast
    have hsplit := hes
    rw [keys, List.map_append, List.nodup_append] at hsplit
    have hinit : last.1 ∉ keys init := fun hmem => hsplit.2.2 _ hmem _ (by simp) rfl
    simp only [List.dropLast_concat]
    split
    · rename_i hkey
      subst hkey
      have hself : init.filter (·.1 ≠ last.1) = init := List.filter_eq_self.2 fun e he => by
        simpa using fun heq : e.1 = last.1 => hinit (List.mem_map.2 ⟨e, he, heq⟩)
      rw [List.filter_append, hself, List.filter_cons_of_neg (by simp), List.filter_nil,
        List.append_nil]
    · rename_i hkey
      rw [List.filter_append, List.filter_cons_of_pos (by simpa using hkey), List.filter_nil]
      split
      · rename_i hmem
        have hmem : key ∈ keys init := by
          have := mem_keys_iff.2 hmem
          simpa [keys, Ne.symm hkey] using this
        exact perm_replaced hsplit.1 hmem last
      · rename_i hmem
        rw [List.filter_eq_self.2 fun e he => ?_]
        simpa using fun heq : e.1 = key => hmem <| mem_keys_iff.1 <|
          heq ▸ List.mem_map_of_mem (List.mem_append_left _ he)

theorem nodup_keys_remove {es : Entries} (hes : (keys es).Nodup) (key : String) :
    (keys (remove es key)).Nodup :=
  ((perm_remove hes key).map _).nodup_iff.2 (hes.sublist (List.filter_sublist.map _))

theorem find?_remove {es : Entries} (hes : (keys es).Nodup) (key k : String) :
    find? (remove es key) k = if k = key then none else find? es k := by
  have hperm := perm_remove hes key
  have hfilter : (keys (es.filter (·.1 ≠ key))).Nodup := hes.sublist (List.filter_sublist.map _)
  calc find? (remove es key) k
      = find? (es.filter (·.1 ≠ key)) k := Option.ext fun v => by
        rw [find?_eq_some_iff (nodup_keys_remove hes key), find?_eq_some_iff hfilter,
          hperm.mem_iff]
    _ = if k = key then none else find? es k := Sorted.lookup_erase key es k

end Entries

namespace Json

/-! ## Objects -/

/-- The keys of an object in order. -/
def keys (j : Json) : List String :=
  Entries.keys (j.entries?.getD [])

theorem get?_eq_find? (j : Json) (k : String) :
    j.get? k = Entries.find? (j.entries?.getD []) k := by
  cases j <;> rfl

theorem mem_keys_iff {j : Json} {k : String} : k ∈ j.keys ↔ (j.get? k).isSome := by
  rw [keys, Entries.mem_keys_iff, get?_eq_find?]

theorem exists_of_isObject {j : Json} (h : j.isObject) : ∃ es, j = obj es := by
  cases j with
  | obj es => exact ⟨es, rfl⟩
  | _ => cases h

theorem isObject_of_get? {j v : Json} {k : String} (h : j.get? k = some v) : j.isObject := by
  cases j with
  | obj es => rfl
  | _ => cases h

theorem first?_congr {a b : Json} {keys : List String} (h : ∀ k ∈ keys, a.get? k = b.get? k) :
    a.first? keys = b.first? keys := by
  unfold first?
  induction keys with
  | nil => rfl
  | cons k keys ih =>
    obtain ⟨hk, hkeys⟩ := List.forall_mem_cons.1 h
    rw [List.findSome?_cons, List.findSome?_cons, hk, ih hkeys]

/-- Objects with the same keys in the same order and the same values are equal. -/
theorem ext_get? {a b : Json} (ha : a.isObject) (hb : b.isObject) (hkeys : a.keys = b.keys)
    (hnodup : a.keys.Nodup) (h : ∀ k, a.get? k = b.get? k) : a = b := by
  obtain ⟨es, rfl⟩ := exists_of_isObject ha
  obtain ⟨fs, rfl⟩ := exists_of_isObject hb
  exact congrArg obj (Entries.ext_find? hkeys hnodup h)

section Set

variable {j v : Json} {key : String}

@[simp] theorem isObject_set (j v : Json) (key : String) : (j.set key v).isObject = j.isObject := by
  cases j <;> rfl

theorem get?_set (h : j.isObject) (k : String) :
    (j.set key v).get? k = if k = key then some v else j.get? k := by
  obtain ⟨es, rfl⟩ := exists_of_isObject h
  exact Entries.find?_insert key v es k

theorem get?_set_of_ne {k : String} (h : k ≠ key) : (j.set key v).get? k = j.get? k := by
  cases j with
  | obj es => exact (Entries.find?_insert key v es k).trans (if_neg h)
  | _ => rfl

theorem set_of_get? (h : j.get? key = some v) : j.set key v = j := by
  obtain ⟨es, rfl⟩ := exists_of_isObject (isObject_of_get? h)
  exact congrArg obj (Entries.insert_of_find? h)

theorem keys_set_of_mem (h : key ∈ j.keys) : (j.set key v).keys = j.keys := by
  cases j with
  | obj es => exact (Entries.keys_insert key v es).trans (if_pos h)
  | _ => rfl

theorem nodup_keys_set (h : j.keys.Nodup) : (j.set key v).keys.Nodup := by
  cases j with
  | obj es => exact Entries.nodup_keys_insert h key v
  | _ => exact h

end Set

/-! ## Documents -/

/-- No object in a document has a key twice. -/
def UniqueKeys : Json → Prop
  | arr xs => ∀ x ∈ xs, x.UniqueKeys
  | obj es => (Entries.keys es).Nodup ∧ ∀ e ∈ es, e.2.UniqueKeys
  | _ => True
decreasing_by
  · have := List.sizeOf_lt_of_mem ‹x ∈ xs›
    simp
    omega
  · have := List.sizeOf_lt_of_mem ‹e ∈ es›
    obtain ⟨k, v⟩ := e
    simp at this ⊢
    omega

namespace UniqueKeys

variable {j : Json} (h : j.UniqueKeys)
include h

theorem nodup_keys : j.keys.Nodup := by
  cases j with
  | obj es =>
    rw [UniqueKeys] at h
    exact h.1
  | _ => exact List.nodup_nil

theorem of_get? {v : Json} {k : String} (hv : j.get? k = some v) : v.UniqueKeys := by
  cases j with
  | obj es =>
    rw [UniqueKeys] at h
    exact h.2 _ (Entries.mem_of_find? hv)
  | _ => cases hv

theorem of_mem_nodes {x : Json} {k : String} (hx : x ∈ j.nodes k) : x.UniqueKeys := by
  unfold nodes array? at hx
  cases hv : j.get? k with
  | none => simp [hv] at hx
  | some v =>
    have hvalue := h.of_get? hv
    cases v with
    | arr xs =>
      rw [UniqueKeys] at hvalue
      exact hvalue x (by simpa [hv, elements?] using hx)
    | _ => simp [hv, elements?] at hx

end UniqueKeys

/-- Two objects with the same entries in any order, or two other documents that are equal. -/
def SameEntries : Json → Json → Prop
  | obj es, obj fs => es.Perm fs
  | a, b => a = b

theorem sameEntries_of_get? {a b : Json} (ha : a.isObject) (hb : b.isObject) (hka : a.keys.Nodup)
    (hkb : b.keys.Nodup) (h : ∀ k, a.get? k = b.get? k) : a.SameEntries b := by
  obtain ⟨es, rfl⟩ := exists_of_isObject ha
  obtain ⟨fs, rfl⟩ := exists_of_isObject hb
  exact Entries.perm_of_find? hka hkb h

theorem SameEntries.refl (a : Json) : a.SameEntries a := by
  cases a with
  | obj es => exact List.Perm.refl es
  | _ => rfl

end Json

end RegisterImage
