import Mathlib
import RegisterImage.Proofs.Json.Objects
import RegisterImage.Proofs.Overlay.Nodes

/-!
# Merged groups

A merged group keeps its key. Its fields are those of the overlay and else those of the base, and
its items and groups are the merged ones. Once a group has all that an overlay group declares,
laying the overlay on it again touches nothing but its items and groups.

## Main definitions

* `Json.withArrays` — a group with other items and groups, where it has such arrays.
* `Covers` — a group that has the fields of an overlay group.
* `Covers.mergeGroup_eq` — an overlay group laid on a group that covers it.
-/

namespace RegisterImage

/-! ## Items and groups of a node -/

namespace Json

theorem array?_eq_some_iff {j : Json} {key : String} {xs : List Json} :
    j.array? key = some xs ↔ j.get? key = some (.arr xs) := by
  unfold array?
  cases j.get? key with
  | none => simp
  | some v => cases v <;> simp [elements?]

theorem array?_congr {a b : Json} {key : String} (h : a.get? key = b.get? key) :
    a.array? key = b.array? key := by
  rw [array?, array?, h]

theorem array?_set {j : Json} {key : String} (h : j.isObject) (xs : List Json) :
    (j.set key (.arr xs)).array? key = some xs := by
  rw [array?_eq_some_iff, get?_set h, if_pos rfl]

theorem nodes_of_array? {j : Json} {key : String} {xs : List Json} (h : j.array? key = some xs) :
    j.nodes key = xs := by
  rw [nodes, h, Option.getD_some]

theorem nodes_of_array?_eq_none {j : Json} {key : String} (h : j.array? key = none) :
    j.nodes key = [] := by
  rw [nodes, h, Option.getD_none]

theorem mem_keys_of_array? {j : Json} {key : String} (h : (j.array? key).isSome) :
    key ∈ j.keys := by
  obtain ⟨xs, hxs⟩ := Option.isSome_iff_exists.1 h
  rw [mem_keys_iff, array?_eq_some_iff.1 hxs, Option.isSome_some]

theorem isObject_of_array? {j : Json} {key : String} (h : (j.array? key).isSome) : j.isObject := by
  obtain ⟨xs, hxs⟩ := Option.isSome_iff_exists.1 h
  exact isObject_of_get? (array?_eq_some_iff.1 hxs)

theorem nodeKey_congr {a b : Json} (hcode : a.get? "code" = b.get? "code")
    (hname : a.get? "name" = b.get? "name") : a.nodeKey = b.nodeKey := by
  rw [nodeKey, nodeKey, hcode, hname]

theorem isObject_of_nodeKey {j : Json} (h : j.nodeKey ≠ "") : j.isObject := by
  cases j with
  | obj es => rfl
  | _ => exact absurd rfl h

/-- A node with other items and groups. Where it has no such array, none is made. -/
def withArrays (node : Json) (items groups : List Json) : Json :=
  setIfArray "groups" node node groups (setIfArray "items" node node items node)

end Json

section SetIfArray

variable {key : String} {base overlay node : Json} {merged : List Json}

theorem isObject_setIfArray :
    (setIfArray key base overlay merged node).isObject = node.isObject := by
  unfold setIfArray
  split
  · exact Json.isObject_set ..
  · rfl

theorem get?_setIfArray_of_ne {k : String} (h : k ≠ key) :
    (setIfArray key base overlay merged node).get? k = node.get? k := by
  unfold setIfArray
  split
  · exact Json.get?_set_of_ne h
  · rfl

theorem get?_setIfArray (h : node.isObject) : (setIfArray key base overlay merged node).get? key =
    if (base.array? key).isSome || (overlay.array? key).isSome then some (.arr merged)
    else node.get? key := by
  unfold setIfArray
  split
  · rw [Json.get?_set h, if_pos rfl]
  · rfl

theorem nodup_keys_setIfArray (h : node.keys.Nodup) :
    (setIfArray key base overlay merged node).keys.Nodup := by
  unfold setIfArray
  split
  · exact Json.nodup_keys_set h
  · exact h

theorem keys_setIfArray
    (h : (base.array? key).isSome || (overlay.array? key).isSome → key ∈ node.keys) :
    (setIfArray key base overlay merged node).keys = node.keys := by
  unfold setIfArray
  split
  · exact Json.keys_set_of_mem (h ‹_›)
  · rfl

end SetIfArray

namespace Json

section WithArrays

variable {node : Json} {items groups : List Json}

theorem isObject_withArrays : (node.withArrays items groups).isObject = node.isObject := by
  rw [withArrays, isObject_setIfArray, isObject_setIfArray]

theorem nodup_keys_withArrays (h : node.keys.Nodup) :
    (node.withArrays items groups).keys.Nodup :=
  nodup_keys_setIfArray (nodup_keys_setIfArray h)

theorem get?_withArrays (h : node.isObject) (k : String) :
    (node.withArrays items groups).get? k =
      if k = "groups" ∧ (node.array? "groups").isSome then some (.arr groups)
      else if k = "items" ∧ (node.array? "items").isSome then some (.arr items)
      else node.get? k := by
  rw [withArrays]
  by_cases hgroups : k = "groups"
  · subst hgroups
    rw [get?_setIfArray (isObject_setIfArray.trans h), get?_setIfArray_of_ne (by decide)]
    simp
  · rw [get?_setIfArray_of_ne hgroups]
    by_cases hitems : k = "items"
    · subst hitems
      rw [get?_setIfArray h]
      simp
    · rw [get?_setIfArray_of_ne hitems]
      simp [hgroups, hitems]

theorem nodeKey_withArrays : (node.withArrays items groups).nodeKey = node.nodeKey := by
  have hfield {k : String} (hgroups : k ≠ "groups") (hitems : k ≠ "items") :
      (node.withArrays items groups).get? k = node.get? k := by
    rw [withArrays, get?_setIfArray_of_ne hgroups, get?_setIfArray_of_ne hitems]
  exact nodeKey_congr (hfield (by decide) (by decide)) (hfield (by decide) (by decide))

theorem array?_withArrays_items (h : node.isObject) :
    (node.withArrays items groups).array? "items" =
      if (node.array? "items").isSome then some items else node.array? "items" := by
  split
  · simp_all [array?_eq_some_iff, get?_withArrays]
  · exact array?_congr (by simp_all [get?_withArrays])

theorem array?_withArrays_groups (h : node.isObject) :
    (node.withArrays items groups).array? "groups" =
      if (node.array? "groups").isSome then some groups else node.array? "groups" := by
  split
  · simp_all [array?_eq_some_iff, get?_withArrays]
  · exact array?_congr (by simp_all [get?_withArrays])

/-- A node has the items it was given, if it has such an array. -/
theorem nodes_withArrays_items (h : node.isObject)
    (hitems : node.array? "items" = none → items = []) :
    (node.withArrays items groups).nodes "items" = items := by
  rw [nodes, array?_withArrays_items h]
  cases harray : node.array? "items" with
  | none => simp [hitems harray]
  | some xs => simp

theorem nodes_withArrays_groups (h : node.isObject)
    (hgroups : node.array? "groups" = none → groups = []) :
    (node.withArrays items groups).nodes "groups" = groups := by
  rw [nodes, array?_withArrays_groups h]
  cases harray : node.array? "groups" with
  | none => simp [hgroups harray]
  | some xs => simp

theorem keys_withArrays : (node.withArrays items groups).keys = node.keys := by
  have hitems : (setIfArray "items" node node items node).keys = node.keys :=
    keys_setIfArray fun h => mem_keys_of_array? (by simpa using h)
  rw [withArrays, keys_setIfArray fun h => ?_, hitems]
  exact hitems ▸ mem_keys_of_array? (by simpa using h)

theorem withArrays_withArrays (hobject : node.isObject) (hkeys : node.keys.Nodup)
    (items' groups' : List Json) :
    (node.withArrays items groups).withArrays items' groups' = node.withArrays items' groups' := by
  have hobject' : (node.withArrays items groups).isObject := isObject_withArrays.trans hobject
  refine ext_get? (isObject_withArrays.trans hobject') (isObject_withArrays.trans hobject) ?_ ?_
    fun k => ?_
  · simp only [keys_withArrays]
  · simpa only [keys_withArrays] using hkeys
  · rw [get?_withArrays hobject', get?_withArrays hobject, array?_withArrays_groups hobject,
      array?_withArrays_items hobject, get?_withArrays hobject]
    by_cases hgroups : (node.array? "groups").isSome <;>
      by_cases hitems : (node.array? "items").isSome <;> simp_all

theorem withArrays_nodes (node : Json) :
    node.withArrays (node.nodes "items") (node.nodes "groups") = node := by
  have hself (key : String) : setIfArray key node node (node.nodes key) node = node := by
    unfold setIfArray
    cases harray : node.array? key with
    | none => simp
    | some xs => simp [nodes_of_array? harray, set_of_get? (array?_eq_some_iff.1 harray)]
  rw [withArrays, hself, hself]

end WithArrays

end Json

/-! ## Merging two nodes -/

section Merge

variable {base overlay node : Json}

theorem nodup_keys_shallowMerge (h : base.keys.Nodup) : (shallowMerge base overlay).keys.Nodup :=
  Entries.nodup_keys_insertAll h _

theorem get?_shallowMerge (h : overlay.keys.Nodup) (k : String) :
    (shallowMerge base overlay).get? k = (overlay.get? k).or (base.get? k) := by
  rw [Json.get?_eq_find? overlay, Json.get?_eq_find? base]
  exact Entries.find?_insertAll _ h k

theorem keys_shallowMerge (h : ∀ k ∈ overlay.keys, k ∈ base.keys) :
    (shallowMerge base overlay).keys = base.keys :=
  Entries.keys_insertAll h

/-- Code and name come from the overlay if it has them, and the key is that of both. -/
theorem nodeKey_of_merged (hcode : node.get? "code" = (overlay.get? "code").or (base.get? "code"))
    (hname : node.get? "name" = (overlay.get? "name").or (base.get? "name"))
    (h : base.nodeKey = overlay.nodeKey) : node.nodeKey = overlay.nodeKey := by
  unfold Json.nodeKey at h ⊢
  rw [hcode, hname]
  clear hcode hname
  generalize base.get? "code" = code, base.get? "name" = name, overlay.get? "code" = code',
    overlay.get? "name" = name' at h ⊢
  have hne : ∀ c ∈ (code.bind Json.string?).filter (· ≠ ""), c ≠ "" := fun c hc => by
    simpa using (Option.mem_filter_iff.1 hc).2
  cases code' with
  | none =>
    simp only [Option.none_or] at h ⊢
    generalize (code.bind Json.string?).filter (· ≠ "") = c at h hne ⊢
    cases c <;> cases name' <;> simp_all
  | some v =>
    simp only [Option.some_or] at h ⊢
    generalize ((some v).bind Json.string?).filter (· ≠ "") = c' at h ⊢
    generalize (code.bind Json.string?).filter (· ≠ "") = c at h hne
    cases c' <;> cases c <;> cases name' <;> simp_all

theorem nodeKey_shallowMerge (hoverlay : overlay.keys.Nodup) (h : base.nodeKey = overlay.nodeKey) :
    (shallowMerge base overlay).nodeKey = overlay.nodeKey :=
  nodeKey_of_merged (get?_shallowMerge hoverlay _) (get?_shallowMerge hoverlay _) h

/-- Fields that are there already are not merged in again. -/
theorem shallowMerge_eq_self (hoverlay : overlay.keys.Nodup) (hnode : node.isObject)
    (h : ∀ k v, overlay.get? k = some v → node.get? k = some v) :
    shallowMerge node overlay = node := by
  obtain ⟨es, rfl⟩ := Json.exists_of_isObject hnode
  refine congrArg Json.obj (Entries.insertAll_eq_self fun e he => h _ _ ?_)
  rw [Json.get?_eq_find?]
  exact (Entries.find?_eq_some_iff hoverlay).2 he

theorem shallowMerge_self (hoverlay : overlay.keys.Nodup) (hobject : overlay.isObject) :
    shallowMerge overlay overlay = overlay :=
  shallowMerge_eq_self hoverlay hobject fun _ _ h => h

theorem shallowMerge_shallowMerge (base : Json) (hoverlay : overlay.keys.Nodup) :
    shallowMerge (shallowMerge base overlay) overlay = shallowMerge base overlay :=
  shallowMerge_eq_self hoverlay rfl fun k v h => by
    rw [get?_shallowMerge hoverlay, h, Option.some_or]

theorem isObject_mergeGroup : (mergeGroup base overlay).isObject := by
  rw [mergeGroup_eq, isObject_setIfArray, isObject_setIfArray]
  rfl

theorem nodup_keys_mergeGroup (h : base.keys.Nodup) : (mergeGroup base overlay).keys.Nodup := by
  rw [mergeGroup_eq]
  exact nodup_keys_setIfArray (nodup_keys_setIfArray (nodup_keys_shallowMerge h))

theorem get?_mergeGroup (hoverlay : overlay.keys.Nodup) (k : String) :
    (mergeGroup base overlay).get? k =
      if k = "groups" ∧ ((base.array? "groups").isSome || (overlay.array? "groups").isSome) then
        some (.arr (mergeGroups (base.nodes "groups") (overlay.nodes "groups")))
      else if k = "items" ∧ ((base.array? "items").isSome || (overlay.array? "items").isSome) then
        some (.arr (mergeItems (base.nodes "items") (overlay.nodes "items")))
      else (overlay.get? k).or (base.get? k) := by
  rw [mergeGroup_eq, ← get?_shallowMerge hoverlay]
  by_cases hgroups : k = "groups"
  · subst hgroups
    rw [get?_setIfArray (isObject_setIfArray.trans rfl), get?_setIfArray_of_ne (by decide)]
    simp
  · rw [get?_setIfArray_of_ne hgroups]
    by_cases hitems : k = "items"
    · subst hitems
      rw [get?_setIfArray rfl]
      simp
    · rw [get?_setIfArray_of_ne hitems]
      simp [hgroups, hitems]

theorem nodeKey_mergeGroup (hoverlay : overlay.keys.Nodup) (h : base.nodeKey = overlay.nodeKey) :
    (mergeGroup base overlay).nodeKey = overlay.nodeKey := by
  refine nodeKey_of_merged ?_ ?_ h <;> simp [get?_mergeGroup hoverlay]

theorem array?_eq_none_of_or {key : String}
    (h : node.get? key = (overlay.get? key).or (base.get? key)) (hbase : base.array? key = none)
    (hoverlay : overlay.array? key = none) : node.array? key = none := by
  cases hget : overlay.get? key with
  | none =>
    rw [hget, Option.none_or] at h
    exact (Json.array?_congr h).trans hbase
  | some v =>
    rw [hget, Option.some_or, ← hget] at h
    exact (Json.array?_congr h).trans hoverlay

theorem nodes_of_merged {key : String} {merged : List Json}
    (h : node.get? key =
      if (base.array? key).isSome || (overlay.array? key).isSome then some (.arr merged)
      else (overlay.get? key).or (base.get? key))
    (hempty : base.nodes key = [] → overlay.nodes key = [] → merged = []) :
    node.nodes key = merged := by
  split at h
  · exact Json.nodes_of_array? (Json.array?_eq_some_iff.2 h)
  · rename_i harray
    obtain ⟨hb, ho⟩ : base.array? key = none ∧ overlay.array? key = none := by simpa using harray
    rw [Json.nodes_of_array?_eq_none (array?_eq_none_of_or h hb ho),
      hempty (Json.nodes_of_array?_eq_none hb) (Json.nodes_of_array?_eq_none ho)]

theorem nodes_mergeGroup_items (hoverlay : overlay.keys.Nodup) :
    (mergeGroup base overlay).nodes "items" =
      mergeItems (base.nodes "items") (overlay.nodes "items") := by
  have hget : (mergeGroup base overlay).get? "items" = _ := get?_mergeGroup hoverlay "items"
  refine nodes_of_merged (by simpa using hget) fun hb ho => ?_
  rw [hb, ho]
  rfl

theorem nodes_mergeGroup_groups (hoverlay : overlay.keys.Nodup) :
    (mergeGroup base overlay).nodes "groups" =
      mergeGroups (base.nodes "groups") (overlay.nodes "groups") := by
  have hget : (mergeGroup base overlay).get? "groups" = _ := get?_mergeGroup hoverlay "groups"
  refine nodes_of_merged (by simpa using hget) fun hb ho => ?_
  rw [hb, ho]
  rfl

theorem keepsKeys_shallowMerge {overlays : List Json} (h : ∀ o ∈ overlays, o.UniqueKeys) :
    KeepsKeys shallowMerge overlays :=
  fun o ho _ hkey => nodeKey_shallowMerge (h o ho).nodup_keys hkey

theorem keepsKeys_mergeGroup {overlays : List Json} (h : ∀ o ∈ overlays, o.UniqueKeys) :
    KeepsKeys mergeGroup overlays :=
  fun o ho _ hkey => nodeKey_mergeGroup (h o ho).nodup_keys hkey

end Merge

/-! ## Groups that cover an overlay -/

/-- A group has every field of an overlay group. Where it has an array of nodes of its own, that of
the overlay does not matter. -/
structure Covers (node overlay : Json) : Prop where
  isObject : node.isObject
  nodup_keys : node.keys.Nodup
  nodup_keys_overlay : overlay.keys.Nodup
  field : ∀ k v, overlay.get? k = some v →
    node.get? k = some v ∨ (k = "items" ∨ k = "groups") ∧ (node.array? k).isSome

namespace Covers

variable {base overlay node : Json}

theorem self (hobject : overlay.isObject) (hkeys : overlay.keys.Nodup) : Covers overlay overlay :=
  ⟨hobject, hkeys, hkeys, fun _ _ h => .inl h⟩

theorem mergeGroup (hbase : base.keys.Nodup) (hoverlay : overlay.keys.Nodup) :
    Covers (mergeGroup base overlay) overlay := by
  refine ⟨isObject_mergeGroup, nodup_keys_mergeGroup hbase, hoverlay, fun k v h => ?_⟩
  have hget : (RegisterImage.mergeGroup base overlay).get? k = _ := get?_mergeGroup hoverlay k
  split at hget
  · exact .inr ⟨.inr (by simp_all), by simp [Json.array?_eq_some_iff.2 hget]⟩
  · split at hget
    · exact .inr ⟨.inl (by simp_all), by simp [Json.array?_eq_some_iff.2 hget]⟩
    · left
      rw [hget, h, Option.some_or]

theorem withArrays (h : Covers node overlay) (items groups : List Json) :
    Covers (node.withArrays items groups) overlay := by
  refine ⟨Json.isObject_withArrays.trans h.isObject, Json.nodup_keys_withArrays h.nodup_keys,
    h.nodup_keys_overlay, fun k v hv => ?_⟩
  have hget : (node.withArrays items groups).get? k = _ := Json.get?_withArrays h.isObject k
  split at hget
  · exact .inr ⟨.inr (by simp_all), by simp [Json.array?_eq_some_iff.2 hget]⟩
  · split at hget
    · exact .inr ⟨.inl (by simp_all), by simp [Json.array?_eq_some_iff.2 hget]⟩
    · rcases h.field k v hv with hfield | ⟨hk, harray⟩
      · exact .inl (hget.trans hfield)
      · exact .inr ⟨hk, by rwa [Json.array?_congr hget]⟩

section

variable (h : Covers node overlay)
include h

theorem isSome_array? {key : String} (hkey : (overlay.array? key).isSome) :
    (node.array? key).isSome := by
  obtain ⟨xs, hxs⟩ := Option.isSome_iff_exists.1 hkey
  rcases h.field key _ (Json.array?_eq_some_iff.1 hxs) with hfield | ⟨-, harray⟩
  · simp [Json.array?_eq_some_iff.2 hfield]
  · exact harray

theorem isSome_array?_or (key : String) :
    ((node.array? key).isSome || (overlay.array? key).isSome) = (node.array? key).isSome := by
  cases hkey : (overlay.array? key).isSome with
  | false => rw [Bool.or_false]
  | true => rw [Bool.or_true, h.isSome_array? hkey]

theorem nodes_overlay {key : String} (hkey : node.array? key = none) : overlay.nodes key = [] := by
  refine Json.nodes_of_array?_eq_none (Option.not_isSome_iff_eq_none.1 fun hsome => ?_)
  have := h.isSome_array? hsome
  simp [hkey] at this

theorem mem_keys {k : String} (hk : k ∈ overlay.keys) : k ∈ node.keys := by
  obtain ⟨v, hv⟩ := Option.isSome_iff_exists.1 (Json.mem_keys_iff.1 hk)
  rcases h.field k v hv with hfield | ⟨-, harray⟩
  · simp [Json.mem_keys_iff, hfield]
  · exact Json.mem_keys_of_array? harray

/-- Laying an overlay group on a group that covers it changes the items and the groups alone. -/
theorem mergeGroup_eq : RegisterImage.mergeGroup node overlay =
    node.withArrays (mergeItems (node.nodes "items") (overlay.nodes "items"))
      (mergeGroups (node.nodes "groups") (overlay.nodes "groups")) := by
  have hshallow : (shallowMerge node overlay).keys = node.keys :=
    keys_shallowMerge fun _ hk => h.mem_keys hk
  have hitems : (setIfArray "items" node overlay
      (mergeItems (node.nodes "items") (overlay.nodes "items"))
      (shallowMerge node overlay)).keys = node.keys := by
    rw [keys_setIfArray fun hkey => ?_, hshallow]
    rw [hshallow]
    exact Json.mem_keys_of_array? (h.isSome_array?_or "items" ▸ hkey)
  have hkeys : (RegisterImage.mergeGroup node overlay).keys = node.keys := by
    rw [RegisterImage.mergeGroup_eq, keys_setIfArray fun hkey => ?_, hitems]
    rw [hitems]
    exact Json.mem_keys_of_array? (h.isSome_array?_or "groups" ▸ hkey)
  refine Json.ext_get? isObject_mergeGroup (Json.isObject_withArrays.trans h.isObject)
    (hkeys.trans Json.keys_withArrays.symm) (hkeys ▸ h.nodup_keys) fun k => ?_
  rw [get?_mergeGroup h.nodup_keys_overlay, Json.get?_withArrays h.isObject, h.isSome_array?_or,
    h.isSome_array?_or]
  split
  · rfl
  · split
    · rfl
    · rename_i hgroups hitems
      cases hv : overlay.get? k with
      | none => rfl
      | some v =>
        rcases h.field k v hv with hfield | ⟨rfl | rfl, harray⟩
        · exact hfield.symm
        · exact absurd ⟨rfl, harray⟩ hitems
        · exact absurd ⟨rfl, harray⟩ hgroups

end

end Covers

end RegisterImage
