import Mathlib
import RegisterImage.Json.Reader
import RegisterImage.Proofs.Json.Objects

/-!
# Documents that are read

A key that is written twice in an object keeps its place and takes the last value. So no object in
a document that is read has a key twice, at any depth.

## Main definitions

* `Json.Reads` — what holds of everything a reader takes off a text.
* `Json.uniqueKeys_of_parse?` — documents that are read have unique keys.
-/

namespace RegisterImage

namespace Entries

theorem nodup_keys_ofWritten (es : Entries) : (keys (ofWritten es)).Nodup := by
  have hnil : (keys []).Nodup := List.nodup_nil
  exact nodup_keys_insertAll hnil es

theorem forall_insert {P : Json → Prop} {es : Entries} (hes : ∀ e ∈ es, P e.2) (key : String)
    {value : Json} (hvalue : P value) : ∀ e ∈ insert key value es, P e.2 := by
  induction es with
  | nil => exact List.forall_mem_singleton.2 hvalue
  | cons e es ih =>
    obtain ⟨he, hes⟩ := List.forall_mem_cons.1 hes
    unfold insert
    split
    · exact List.forall_mem_cons.2 ⟨hvalue, hes⟩
    · exact List.forall_mem_cons.2 ⟨he, ih hes⟩

theorem forall_ofWritten {P : Json → Prop} {es : Entries} (hes : ∀ e ∈ es, P e.2) :
    ∀ e ∈ ofWritten es, P e.2 :=
  List.foldlRecOn (motive := fun fs : Entries => ∀ e ∈ fs, P e.2) es _
    (fun _ he => absurd he List.not_mem_nil) fun _ hfs e he => forall_insert hfs e.1 (hes e he)

end Entries

namespace Json

/-- What holds of everything that a reader takes off a text. -/
def Reads {α : Type} (P : α → Prop) (reader : Reader α) : Prop :=
  ∀ s x s', reader s = some (x, s') → P x

/-! ## Arrays and objects -/

section Lists

variable {α : Type} {P : α → Prop}

/-- By induction on the fuel, which is spent on one element after the other. -/
theorem Reads.elements {element : Reader α} (h : Reads P element) (fuel : Nat) {read : List α}
    (hread : ∀ x ∈ read, P x) : Reads (∀ x ∈ ·, P x) (readElements element fuel read) := by
  induction fuel generalizing read with
  | zero => exact fun _ _ _ hnone => nomatch hnone
  | succ fuel ih =>
    intro s xs s' hxs
    unfold readElements at hxs
    split at hxs
    · cases hxs
    · rename_i x rest helement
      have hcons : ∀ y ∈ x :: read, P y := List.forall_mem_cons.2 ⟨h _ _ _ helement, hread⟩
      split at hxs
      · exact ih hcons _ _ _ hxs
      · obtain ⟨rfl, -⟩ := Prod.mk.inj (Option.some.inj hxs)
        exact fun y hy => hcons y (List.mem_reverse.1 hy)
      · cases hxs

theorem Reads.array {element : Reader α} (h : Reads P element) (fuel : Nat) :
    Reads (∀ x ∈ ·, P x) (readArray element fuel) := by
  intro s xs s' hxs
  unfold readArray at hxs
  split at hxs
  · obtain ⟨rfl, -⟩ := Prod.mk.inj (Option.some.inj hxs)
    simp
  · exact h.elements fuel (by simp) _ _ _ hxs

variable {scrutiny : Scrutiny} {value : String → Reader α}

theorem Reads.entry (h : ∀ key, Reads P (value key)) (fuel : Nat) :
    Reads (fun e => P e.2) (readEntry scrutiny value fuel) := by
  intro s e s' he
  unfold readEntry at he
  split at he
  · obtain ⟨⟨key, rest⟩, -, he⟩ := Option.bind_eq_some_iff.1 he
    simp only at he
    split at he
    · obtain ⟨⟨v, rest⟩, hv, he⟩ := Option.map_eq_some_iff.1 he
      obtain ⟨rfl, -⟩ := Prod.mk.inj he
      exact h key _ _ _ hv
    · cases he
  · cases he

theorem Reads.entries (h : ∀ key, Reads P (value key)) (fuel : Nat) {read : List (String × α)}
    (hread : ∀ e ∈ read, P e.2) :
    Reads (∀ e ∈ ·, P e.2) (readEntries scrutiny value fuel read) := by
  induction fuel generalizing read with
  | zero => exact fun _ _ _ hnone => nomatch hnone
  | succ fuel ih =>
    intro s es s' hes
    unfold readEntries at hes
    split at hes
    · cases hes
    · rename_i e rest hentry
      have hcons : ∀ e' ∈ e :: read, P e'.2 :=
        List.forall_mem_cons.2 ⟨Reads.entry h fuel _ _ _ hentry, hread⟩
      split at hes
      · exact ih hcons _ _ _ hes
      · obtain ⟨rfl, -⟩ := Prod.mk.inj (Option.some.inj hes)
        exact fun e' he' => hcons e' (List.mem_reverse.1 he')
      · cases hes

theorem Reads.object (h : ∀ key, Reads P (value key)) (fuel : Nat) :
    Reads (∀ e ∈ ·, P e.2) (readObject scrutiny value fuel) := by
  intro s es s' hes
  unfold readObject at hes
  split at hes
  · obtain ⟨rfl, -⟩ := Prod.mk.inj (Option.some.inj hes)
    simp
  · exact Reads.entries h fuel (by simp) _ _ _ hes

end Lists

/-! ## Documents -/

/-- Neither an array nor an object. -/
def IsScalar (j : Json) : Prop :=
  j.elements? = none ∧ j.entries? = none

theorem IsScalar.uniqueKeys {j : Json} (h : j.IsScalar) : j.UniqueKeys := by
  cases j with
  | arr xs => cases h.1
  | obj es => cases h.2
  | _ => simp [UniqueKeys]

theorem isScalar_of_floatOf? {negative : Bool} {whole fraction : List Nat} {exponent : Int}
    {j : Json} (h : floatOf? negative whole fraction exponent = some j) : j.IsScalar := by
  unfold floatOf? at h
  simp only at h
  obtain ⟨_, -, h⟩ := Option.bind_eq_some_iff.1 h
  obtain ⟨_, -, h⟩ := Option.bind_eq_some_iff.1 h
  obtain rfl := Option.some.inj h
  exact ⟨rfl, rfl⟩

theorem isScalar_of_numberOf? {negative : Bool} {whole : List Nat} {fraction : Option (List Nat)}
    {exponent : Option Int} {j : Json} (h : numberOf? negative whole fraction exponent = some j) :
    j.IsScalar := by
  unfold numberOf? at h
  simp only at h
  split at h
  · split at h
    · obtain rfl := Option.some.inj h
      exact ⟨rfl, rfl⟩
    · exact isScalar_of_floatOf? h
  · split at h
    · obtain rfl := Option.some.inj h
      exact ⟨rfl, rfl⟩
    · exact isScalar_of_floatOf? h
  · exact isScalar_of_floatOf? h

theorem reads_readNumber (scrutiny : Scrutiny) (negative : Bool) :
    Reads IsScalar (readNumber scrutiny negative) := by
  intro s j s' h
  unfold readNumber at h
  obtain ⟨_, -, h⟩ := Option.bind_eq_some_iff.1 h
  obtain ⟨_, -, h⟩ := Option.bind_eq_some_iff.1 h
  obtain ⟨_, -, h⟩ := Option.bind_eq_some_iff.1 h
  cases scrutiny with
  | checked =>
    obtain ⟨j', hj', h⟩ := Option.map_eq_some_iff.1 h
    obtain ⟨rfl, -⟩ := Prod.mk.inj h
    exact isScalar_of_numberOf? hj'
  | skimmed =>
    obtain ⟨rfl, -⟩ := Prod.mk.inj (Option.some.inj h)
    exact ⟨rfl, rfl⟩

theorem reads_readWord (word : String) {value : Json} (h : value.IsScalar) :
    Reads IsScalar (readWord word value) := by
  intro s j s' hj
  obtain ⟨_, -, hj⟩ := Option.map_eq_some_iff.1 hj
  obtain ⟨rfl, -⟩ := Prod.mk.inj hj
  exact h

theorem reads_readScalar (scrutiny : Scrutiny) (fuel : Nat) :
    Reads IsScalar (readScalar scrutiny fuel) := by
  intro s j s' h
  unfold readScalar at h
  split at h
  · obtain ⟨_, -, h⟩ := Option.map_eq_some_iff.1 h
    obtain ⟨rfl, -⟩ := Prod.mk.inj h
    exact ⟨rfl, rfl⟩
  · exact reads_readNumber _ _ _ _ _ h
  · exact reads_readWord _ ⟨rfl, rfl⟩ _ _ _ h
  · exact reads_readWord _ ⟨rfl, rfl⟩ _ _ _ h
  · exact reads_readWord _ ⟨rfl, rfl⟩ _ _ _ h
  · exact reads_readNumber _ _ _ _ _ h

/-- By induction on the depth: what is inside an array or an object is one level deeper. -/
theorem reads_readValue (scrutiny : Scrutiny) (fuel depth : Nat) :
    Reads UniqueKeys (readValue scrutiny fuel depth) := by
  induction depth with
  | zero =>
    intro s j s' h
    exact (reads_readScalar _ _ _ _ _ h).uniqueKeys
  | succ depth ih =>
    intro s j s' h
    unfold readValue at h
    split at h
    · rename_i hdepth
      obtain rfl := Nat.succ.inj hdepth
      obtain ⟨⟨xs, rest⟩, hxs, h⟩ := Option.map_eq_some_iff.1 h
      obtain ⟨rfl, -⟩ := Prod.mk.inj h
      rw [UniqueKeys]
      exact ih.array fuel _ _ _ hxs
    · rename_i hdepth
      obtain rfl := Nat.succ.inj hdepth
      obtain ⟨⟨es, rest⟩, hes, h⟩ := Option.map_eq_some_iff.1 h
      obtain ⟨rfl, -⟩ := Prod.mk.inj h
      rw [UniqueKeys]
      exact ⟨Entries.nodup_keys_ofWritten es,
        Entries.forall_ofWritten (Reads.object (fun _ => ih) fuel _ _ _ hes)⟩
    · exact (reads_readScalar _ _ _ _ _ h).uniqueKeys

theorem uniqueKeys_of_parse? {text : String} {j : Json} (h : parse? text = some j) :
    j.UniqueKeys := by
  unfold parse? whole? at h
  split at h
  · rename_i x rest hread
    split at h
    · obtain rfl := Option.some.inj h
      exact reads_readValue _ _ _ _ _ _ hread
    · cases h
  · cases h

end Json

end RegisterImage
