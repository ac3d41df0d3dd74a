import Mathlib
import RegisterImage.Overlay

/-!
# Nodes merged by their keys

Overlay nodes are placed one after the other, each on the first node with its key or at the end.
When every overlay node has a key of its own, they do not get in each other's way: each key leads to
one merged node, and a list in which all overlay nodes have settled takes them in without a trace.

## Main definitions

* `nodeAt?` — the first node with a key.
* `mergeNodes` — overlay nodes placed on the nodes of a list.
* `Keyed`, `DistinctKeys` — nodes with keys of their own, all of them or those that have keys.
* `Settles` — an overlay node that nothing is left of once it is placed and nodes are left out.
* `filterMap_mergeNodes_twice` — overlays that settle may be placed again.
-/

namespace RegisterImage

def nodeAt? (nodes : List Json) (key : String) : Option Json :=
  nodes.find? (·.nodeKey = key)

/-- Every node has a key, and no two have the same. -/
def Keyed (nodes : List Json) : Prop :=
  (∀ n ∈ nodes, n.nodeKey ≠ "") ∧ (nodes.map Json.nodeKey).Nodup

instance (nodes : List Json) : Decidable (Keyed nodes) :=
  inferInstanceAs (Decidable (_ ∧ _))

/-- No two nodes with a key have the same. -/
def DistinctKeys (nodes : List Json) : Prop :=
  ((nodes.map Json.nodeKey).filter (· ≠ "")).Nodup

instance (nodes : List Json) : Decidable (DistinctKeys nodes) :=
  inferInstanceAs (Decidable (List.Nodup _))

theorem Keyed.nil : Keyed [] :=
  ⟨by simp, List.nodup_nil⟩

theorem DistinctKeys.nil : DistinctKeys [] :=
  List.nodup_nil

theorem DistinctKeys.eq_of_nodeKey_eq {nodes : List Json} (h : DistinctKeys nodes) {n n' : Json}
    (hn : n ∈ nodes) (hn' : n' ∈ nodes) (hne : n.nodeKey ≠ "") (hkey : n.nodeKey = n'.nodeKey) :
    n = n' := by
  rw [DistinctKeys, List.filter_map] at h
  exact List.inj_on_of_nodup_map h (List.mem_filter.2 ⟨hn, by simpa using hne⟩)
    (List.mem_filter.2 ⟨hn', by simpa using hkey ▸ hne⟩) hkey

/-! ## The first node with a key -/

section NodeAt

variable {nodes : List Json} {key : String} {n : Json}

theorem nodeKey_of_nodeAt? (h : nodeAt? nodes key = some n) : n.nodeKey = key := by
  simpa using List.find?_some h

theorem mem_of_nodeAt? (h : nodeAt? nodes key = some n) : n ∈ nodes :=
  List.mem_of_find?_eq_some h

theorem nodeAt?_eq_none_iff : nodeAt? nodes key = none ↔ ∀ n ∈ nodes, n.nodeKey ≠ key := by
  simp [nodeAt?]

theorem nodeAt?_append (nodes nodes' : List Json) (key : String) :
    nodeAt? (nodes ++ nodes') key = (nodeAt? nodes key).or (nodeAt? nodes' key) :=
  List.find?_append

theorem nodeAt?_cons (n : Json) (nodes : List Json) (key : String) :
    nodeAt? (n :: nodes) key = if n.nodeKey = key then some n else nodeAt? nodes key := by
  by_cases h : n.nodeKey = key <;> simp [nodeAt?, h]

variable {keep : Json → Option Json}

/-- The first node with a key stays the first one when it is kept. -/
theorem nodeAt?_filterMap (hkeep : ∀ n n', keep n = some n' → n'.nodeKey = n.nodeKey) {n' : Json}
    (h : nodeAt? nodes key = some n) (hn : keep n = some n') :
    nodeAt? (nodes.filterMap keep) key = some n' := by
  induction nodes with
  | nil => cases h
  | cons m nodes ih =>
    rw [nodeAt?_cons] at h
    split at h
    · rename_i hm
      obtain rfl := Option.some.inj h
      rw [List.filterMap_cons_some hn, nodeAt?_cons, if_pos ((hkeep _ _ hn).trans hm)]
    · rename_i hm
      cases hkept : keep m with
      | none => rw [List.filterMap_cons_none hkept, ih h]
      | some m' =>
        rw [List.filterMap_cons_some hkept, nodeAt?_cons, hkeep _ _ hkept, if_neg hm, ih h]

theorem nodeAt?_filterMap_eq_none (hkeep : ∀ n n', keep n = some n' → n'.nodeKey = n.nodeKey)
    (h : ∀ n ∈ nodes, n.nodeKey = key → keep n = none) :
    nodeAt? (nodes.filterMap keep) key = none := by
  rw [nodeAt?_eq_none_iff]
  intro n' hn' hkey
  obtain ⟨n, hn, hkept⟩ := List.mem_filterMap.1 hn'
  have hnone := h n hn ((hkeep n n' hkept).symm.trans hkey)
  rw [hkept] at hnone
  cases hnone

end NodeAt

/-! ## One overlay node -/

section Place

variable {merge : Json → Json} {nodes : List Json} {o : Json}

/-- An overlay node is added, or merged with the first node that has its key. -/
theorem placeNode_cases (merge : Json → Json) (nodes : List Json) (ho : o.nodeKey ≠ "") :
    nodeAt? nodes o.nodeKey = none ∧ placeNode merge nodes o = nodes ++ [o] ∨
      ∃ before n after, nodes = before ++ n :: after ∧ n.nodeKey = o.nodeKey ∧
        nodeAt? before o.nodeKey = none ∧ placeNode merge nodes o = before ++ merge n :: after := by
  unfold placeNode
  rw [if_neg ho]
  cases hindex : nodes.findIdx? (·.nodeKey = o.nodeKey) with
  | none =>
    rw [List.findIdx?_eq_none_iff] at hindex
    exact .inl ⟨nodeAt?_eq_none_iff.2 fun n hn => by simpa using hindex n hn, rfl⟩
  | some i =>
    obtain ⟨hi, hkey, hfirst⟩ := List.findIdx?_eq_some_iff_getElem.1 hindex
    refine .inr ⟨nodes.take i, nodes[i], nodes.drop (i + 1), ?_, by simpa using hkey, ?_, ?_⟩
    · simp
    · rw [nodeAt?_eq_none_iff]
      intro n hn
      obtain ⟨j, hj, rfl⟩ := List.mem_take_iff_getElem.1 hn
      simpa using hfirst j (by omega)
    · simp [List.modify_eq_take_cons_drop, hi]

theorem nodeAt?_placeNode (ho : o.nodeKey ≠ "")
    (hmerge : ∀ n, n.nodeKey = o.nodeKey → (merge n).nodeKey = o.nodeKey) (key : String) :
    nodeAt? (placeNode merge nodes o) key =
      if key = o.nodeKey then some ((nodeAt? nodes key).elim o merge) else nodeAt? nodes key := by
  rcases placeNode_cases merge nodes ho with ⟨hnone, hplace⟩ |
    ⟨before, n, after, rfl, hn, hbefore, hplace⟩
  · rw [hplace, nodeAt?_append, nodeAt?_cons]
    by_cases hkey : key = o.nodeKey
    · subst hkey
      simp [hnone]
    · simp [hkey, Ne.symm hkey, nodeAt?]
  · rw [hplace, nodeAt?_append, nodeAt?_append, nodeAt?_cons, nodeAt?_cons, hmerge n hn, hn]
    by_cases hkey : key = o.nodeKey
    · subst hkey
      simp [hbefore]
    · simp [hkey, Ne.symm hkey]

theorem map_nodeKey_placeNode (ho : o.nodeKey ≠ "")
    (hmerge : ∀ n, n.nodeKey = o.nodeKey → (merge n).nodeKey = o.nodeKey) :
    (placeNode merge nodes o).map Json.nodeKey =
      if o.nodeKey ∈ nodes.map Json.nodeKey then nodes.map Json.nodeKey
      else nodes.map Json.nodeKey ++ [o.nodeKey] := by
  rcases placeNode_cases merge nodes ho with ⟨hnone, hplace⟩ |
    ⟨before, n, after, rfl, hn, -, hplace⟩
  · have hmem : o.nodeKey ∉ nodes.map Json.nodeKey := by
      simpa using nodeAt?_eq_none_iff.1 hnone
    rw [hplace, if_neg hmem, List.map_append, List.map_singleton]
  · have hmem : o.nodeKey ∈ (before ++ n :: after).map Json.nodeKey := by simp [hn]
    rw [hplace, if_pos hmem]
    simp [hmerge n hn, hn]

end Place

/-! ## Lists of overlay nodes -/

def mergeNodes (merge : Json → Json → Json) (nodes overlays : List Json) : List Json :=
  overlays.foldl (fun nodes o => placeNode (merge · o) nodes o) nodes

theorem Keyed.of_cons {o : Json} {os : List Json} (h : Keyed (o :: os)) :
    o.nodeKey ≠ "" ∧ nodeAt? os o.nodeKey = none ∧ Keyed os := by
  obtain ⟨hne, hnodup⟩ := h
  obtain ⟨ho, hos⟩ := List.forall_mem_cons.1 hne
  obtain ⟨hmem, hrest⟩ := List.nodup_cons.1 hnodup
  refine ⟨ho, nodeAt?_eq_none_iff.2 fun n hn heq => hmem ?_, hos, hrest⟩
  exact heq ▸ List.mem_map_of_mem hn

theorem Keyed.nodeAt? {os : List Json} (h : Keyed os) {o : Json} (ho : o ∈ os) :
    nodeAt? os o.nodeKey = some o := by
  cases hfound : RegisterImage.nodeAt? os o.nodeKey with
  | none => exact absurd rfl (nodeAt?_eq_none_iff.1 hfound o ho)
  | some n =>
    exact congrArg some <|
      List.inj_on_of_nodup_map h.2 (mem_of_nodeAt? hfound) ho (nodeKey_of_nodeAt? hfound)

/-- Merging with an overlay node leaves its key. -/
def KeepsKeys (merge : Json → Json → Json) (overlays : List Json) : Prop :=
  ∀ o ∈ overlays, ∀ n, n.nodeKey = o.nodeKey → (merge n o).nodeKey = o.nodeKey

section Merge

variable {merge : Json → Json → Json} {nodes overlays : List Json}

/-- By induction on the overlay nodes: only the one with the key matters. -/
theorem nodeAt?_mergeNodes (hkeyed : Keyed overlays) (hmerge : KeepsKeys merge overlays)
    (key : String) : nodeAt? (mergeNodes merge nodes overlays) key =
      (nodeAt? overlays key).elim (nodeAt? nodes key) fun o =>
        some ((nodeAt? nodes key).elim o (merge · o)) := by
  induction overlays generalizing nodes with
  | nil => rfl
  | cons o os ih =>
    obtain ⟨ho, hos⟩ := List.forall_mem_cons.1 hmerge
    obtain ⟨hne, hnone, hkeyed⟩ := hkeyed.of_cons
    change nodeAt? (mergeNodes merge (placeNode (merge · o) nodes o) os) key = _
    rw [ih hkeyed hos, nodeAt?_placeNode hne ho, nodeAt?_cons]
    by_cases hkey : key = o.nodeKey
    · subst hkey
      simp [hnone]
    · simp [hkey, Ne.symm hkey]

theorem Keyed.nodeAt?_mergeNodes (hkeyed : Keyed overlays) (hmerge : KeepsKeys merge overlays)
    (nodes : List Json) {o : Json} (ho : o ∈ overlays) :
    RegisterImage.nodeAt? (mergeNodes merge nodes overlays) o.nodeKey =
      some ((RegisterImage.nodeAt? nodes o.nodeKey).elim o (merge · o)) := by
  rw [RegisterImage.nodeAt?_mergeNodes hkeyed hmerge, hkeyed.nodeAt? ho, Option.elim_some]

/-- Overlay nodes with keys that are not there yet are added in their order. -/
theorem mergeNodes_eq_append (hkeyed : Keyed overlays)
    (h : ∀ o ∈ overlays, nodeAt? nodes o.nodeKey = none) :
    mergeNodes merge nodes overlays = nodes ++ overlays := by
  induction overlays generalizing nodes with
  | nil => rw [List.append_nil]; rfl
  | cons o os ih =>
    obtain ⟨ho, hos⟩ := List.forall_mem_cons.1 h
    obtain ⟨hne, hnone, hkeyed⟩ := hkeyed.of_cons
    have hplace : placeNode (merge · o) nodes o = nodes ++ [o] := by
      rcases placeNode_cases (merge · o) nodes hne with ⟨-, hplace⟩ | ⟨_, n, _, rfl, hn, -, -⟩
      · exact hplace
      · exact absurd hn (nodeAt?_eq_none_iff.1 ho n (by simp))
    change mergeNodes merge (placeNode (merge · o) nodes o) os = _
    rw [hplace, ih hkeyed fun o' ho' => ?_, List.append_assoc, List.singleton_append]
    rw [nodeAt?_append, hos o' ho', Option.none_or, nodeAt?_cons,
      if_neg (Ne.symm (nodeAt?_eq_none_iff.1 hnone o' ho'))]
    rfl

/-- Placing keyed nodes gives no two nodes the same key. -/
theorem DistinctKeys.mergeNodes (h : DistinctKeys nodes) (hkeyed : Keyed overlays)
    (hmerge : KeepsKeys merge overlays) : DistinctKeys (mergeNodes merge nodes overlays) := by
  induction overlays generalizing nodes with
  | nil => exact h
  | cons o os ih =>
    obtain ⟨ho, hos⟩ := List.forall_mem_cons.1 hmerge
    obtain ⟨hne, -, hkeyed⟩ := hkeyed.of_cons
    refine ih ?_ hkeyed hos
    unfold DistinctKeys at h ⊢
    rw [map_nodeKey_placeNode hne ho]
    split
    · exact h
    · rename_i hmem
      rw [List.filter_append, List.nodup_append]
      refine ⟨h, (List.nodup_singleton _).filter _, ?_⟩
      rintro key hkey _ hsingle rfl
      obtain rfl := List.mem_singleton.1 (List.mem_of_mem_filter hsingle)
      exact hmem (List.mem_of_mem_filter hkey)

end Merge

/-! ## Overlay nodes that settle -/

/-- Placing an overlay node changes none of the nodes that are kept. -/
def Settles (merge : Json → Json → Json) (keep : Json → Option Json) (nodes : List Json)
    (o : Json) : Prop :=
  (nodeAt? nodes o.nodeKey).elim (keep o = none) fun n => keep (merge n o) = keep n

section Settle

variable {merge : Json → Json → Json} {keep : Json → Option Json} {nodes overlays : List Json}

theorem Settles.filterMap_placeNode {o : Json} (h : Settles merge keep nodes o)
    (ho : o.nodeKey ≠ "") :
    (placeNode (merge · o) nodes o).filterMap keep = nodes.filterMap keep := by
  unfold Settles at h
  rcases placeNode_cases (merge · o) nodes ho with ⟨hnone, hplace⟩ |
    ⟨before, n, after, rfl, hn, hbefore, hplace⟩
  · rw [hnone, Option.elim_none] at h
    rw [hplace, List.filterMap_append, List.filterMap_cons_none h, List.filterMap_nil,
      List.append_nil]
  · rw [nodeAt?_append, hbefore, Option.none_or, nodeAt?_cons, if_pos hn, Option.elim_some] at h
    rw [hplace, List.filterMap_append, List.filterMap_append, List.filterMap_cons,
      List.filterMap_cons, h]

/-- By induction on the overlay nodes: placing one leaves the others settled. -/
theorem filterMap_mergeNodes (hkeyed : Keyed overlays) (hmerge : KeepsKeys merge overlays)
    (h : ∀ o ∈ overlays, Settles merge keep nodes o) :
    (mergeNodes merge nodes overlays).filterMap keep = nodes.filterMap keep := by
  induction overlays generalizing nodes with
  | nil => rfl
  | cons o os ih =>
    obtain ⟨hmo, hmos⟩ := List.forall_mem_cons.1 hmerge
    obtain ⟨ho, hos⟩ := List.forall_mem_cons.1 h
    obtain ⟨hne, hnone, hkeyed⟩ := hkeyed.of_cons
    refine (ih hkeyed hmos fun o' ho' => ?_).trans (ho.filterMap_placeNode hne)
    have hother : o'.nodeKey ≠ o.nodeKey := nodeAt?_eq_none_iff.1 hnone o' ho'
    rw [Settles, nodeAt?_placeNode hne hmo, if_neg hother]
    exact hos o' ho'

/-- Overlay nodes are placed once more on what is left of a list that they were merged into. It is
enough that what an overlay node was merged into takes it in again, and that an overlay node is
left out like what it was merged into. -/
theorem filterMap_mergeNodes_twice (hkeyed : Keyed overlays) (hmerge : KeepsKeys merge overlays)
    (hkey : ∀ n n', keep n = some n' → n'.nodeKey = n.nodeKey)
    (hkeep : ∀ n n', keep n = some n' → keep n' = some n')
    (hlone : ∀ n ∈ mergeNodes merge nodes overlays, ∀ n' ∈ mergeNodes merge nodes overlays,
      n.nodeKey ≠ "" → n'.nodeKey = n.nodeKey → keep n = none → keep n' = none)
    (hsettle : ∀ o ∈ overlays, ∀ m, m = (nodeAt? nodes o.nodeKey).elim o (merge · o) →
      (keep m = none → keep o = none) ∧ ∀ m', keep m = some m' → keep (merge m' o) = some m') :
    (mergeNodes merge ((mergeNodes merge nodes overlays).filterMap keep) overlays).filterMap keep =
      (mergeNodes merge nodes overlays).filterMap keep := by
  have htwice : ((mergeNodes merge nodes overlays).filterMap keep).filterMap keep =
      (mergeNodes merge nodes overlays).filterMap keep := by
    rw [List.filterMap_filterMap]
    refine List.filterMap_congr fun n _ => ?_
    cases hn : keep n with
    | none => rfl
    | some n' => exact hkeep n n' hn
  refine (filterMap_mergeNodes hkeyed hmerge fun o ho => ?_).trans htwice
  obtain ⟨hdropped, hkept⟩ := hsettle o ho _ rfl
  have hfound := hkeyed.nodeAt?_mergeNodes hmerge nodes ho
  have hm := nodeKey_of_nodeAt? hfound
  unfold Settles
  cases hmerged : keep ((nodeAt? nodes o.nodeKey).elim o (merge · o)) with
  | none =>
    rw [nodeAt?_filterMap_eq_none hkey fun n hn hnkey => ?_]
    · exact hdropped hmerged
    · refine hlone _ (mem_of_nodeAt? hfound) n hn ?_ (hnkey.trans hm.symm) hmerged
      exact fun hempty => hkeyed.1 o ho (hm.symm.trans hempty)
  | some m' =>
    rw [nodeAt?_filterMap hkey hfound hmerged, Option.elim_some, hkeep _ _ hmerged]
    exact hkept m' hmerged

end Settle

end RegisterImage
