import Mathlib
import RegisterImage.Proofs.Overlay.Merge

/-!
# Groups without what is hidden

A group is left out when it is hidden or when nothing is left in it. Otherwise it keeps its key and
its fields, and its items and groups are those that are left. Leaving them out again changes
nothing.

## Main definitions

* `HideList.itemsLeft`, `HideList.groupsLeft` — the items and groups of a group that are left.
* `filterGroup?_eq_some_iff`, `filterGroup?_eq_none_iff` — when a group is left, and as what.
* `filterGroup?_of_filterGroup?` — a group that is left is left again.
-/

namespace RegisterImage

namespace HideList

variable (hide : HideList) (group : Json)

def itemsLeft : List Json :=
  (group.nodes "items").filter (!hide.hidesItem ·)

def groupsLeft : List Json :=
  filterGroups hide (group.nodes "groups")

end HideList

variable {hide : HideList} {group group' : Json}

theorem hidesGroup_congr (hide : HideList) (h : group'.nodeKey = group.nodeKey) :
    hide.hidesGroup group' = hide.hidesGroup group := by
  rw [HideList.hidesGroup, HideList.hidesGroup, h]

theorem hidesItem_congr (hide : HideList) (h : group'.nodeKey = group.nodeKey) :
    hide.hidesItem group' = hide.hidesItem group := by
  rw [HideList.hidesItem, HideList.hidesItem, h]

theorem filterGroup?_eq_some_iff : filterGroup? hide group = some group' ↔
    ¬hide.hidesGroup group ∧ ¬(hide.itemsLeft group = [] ∧ hide.groupsLeft group = []) ∧
      group' = group.withArrays (hide.itemsLeft group) (hide.groupsLeft group) := by
  rw [filterGroup?_eq]
  split
  · simp_all
  · change (if (hide.itemsLeft group).isEmpty && (hide.groupsLeft group).isEmpty then none
      else some (group.withArrays (hide.itemsLeft group) (hide.groupsLeft group))) = _ ↔ _
    by_cases hempty : hide.itemsLeft group = [] ∧ hide.groupsLeft group = []
    · rw [if_pos (by simpa using hempty)]
      simp [hempty]
    · rw [if_neg (by simpa using hempty), Option.some_inj, eq_comm]
      simp_all

theorem filterGroup?_eq_none_iff : filterGroup? hide group = none ↔
    hide.hidesGroup group ∨ hide.itemsLeft group = [] ∧ hide.groupsLeft group = [] := by
  constructor
  · intro hnone
    by_contra hleft
    obtain ⟨hhidden, hempty⟩ := not_or.1 hleft
    rw [filterGroup?_eq_some_iff.2 ⟨hhidden, hempty, rfl⟩] at hnone
    cases hnone
  · intro hleft
    cases hfilter : filterGroup? hide group with
    | none => rfl
    | some group' =>
      obtain ⟨hhidden, hempty, -⟩ := filterGroup?_eq_some_iff.1 hfilter
      exact absurd hleft (not_or.2 ⟨hhidden, hempty⟩)

theorem itemsLeft_of_array?_eq_none (h : group.array? "items" = none) :
    hide.itemsLeft group = [] := by
  rw [HideList.itemsLeft, Json.nodes_of_array?_eq_none h, List.filter_nil]

theorem groupsLeft_of_array?_eq_none (h : group.array? "groups" = none) :
    hide.groupsLeft group = [] := by
  rw [HideList.groupsLeft, Json.nodes_of_array?_eq_none h]
  rfl

section

variable (h : filterGroup? hide group = some group')
include h

theorem nodeKey_of_filterGroup? : group'.nodeKey = group.nodeKey := by
  obtain ⟨-, -, rfl⟩ := filterGroup?_eq_some_iff.1 h
  exact Json.nodeKey_withArrays

/-- What is left of anything is left of an object. -/
theorem isObject_of_filterGroup? : group.isObject := by
  obtain ⟨-, hempty, -⟩ := filterGroup?_eq_some_iff.1 h
  by_contra hobject
  have hnone (key : String) : group.array? key = none :=
    Option.not_isSome_iff_eq_none.1 fun hsome => hobject (Json.isObject_of_array? hsome)
  exact hempty ⟨itemsLeft_of_array?_eq_none (hnone _), groupsLeft_of_array?_eq_none (hnone _)⟩

theorem nodes_items_of_filterGroup? : group'.nodes "items" = hide.itemsLeft group := by
  have hobject := isObject_of_filterGroup? h
  obtain ⟨-, -, rfl⟩ := filterGroup?_eq_some_iff.1 h
  exact Json.nodes_withArrays_items hobject itemsLeft_of_array?_eq_none

theorem nodes_groups_of_filterGroup? : group'.nodes "groups" = hide.groupsLeft group := by
  have hobject := isObject_of_filterGroup? h
  obtain ⟨-, -, rfl⟩ := filterGroup?_eq_some_iff.1 h
  exact Json.nodes_withArrays_groups hobject groupsLeft_of_array?_eq_none

end

/-- By induction on the group: nothing is left to leave out in it. -/
theorem filterGroup?_of_filterGroup? {group group' : Json}
    (h : filterGroup? hide group = some group') : filterGroup? hide group' = some group' := by
  have hitems : hide.itemsLeft group' = group'.nodes "items" := by
    rw [HideList.itemsLeft, nodes_items_of_filterGroup? h, HideList.itemsLeft, List.filter_filter]
    simp
  have hgroups : hide.groupsLeft group' = group'.nodes "groups" := by
    rw [HideList.groupsLeft, nodes_groups_of_filterGroup? h, HideList.groupsLeft, filterGroups,
      filterGroups, List.filterMap_filterMap]
    refine List.filterMap_congr fun g hg => ?_
    cases hleft : filterGroup? hide g with
    | none => rfl
    | some g' =>
      have := Json.sizeOf_lt_of_mem_nodes hg
      exact filterGroup?_of_filterGroup? hleft
  have hhidden := hidesGroup_congr hide (nodeKey_of_filterGroup? h)
  obtain ⟨hshown, hempty, -⟩ := filterGroup?_eq_some_iff.1 h
  rw [filterGroup?_eq_some_iff, hhidden, hitems, hgroups, nodes_items_of_filterGroup? h,
    nodes_groups_of_filterGroup? h]
  refine ⟨hshown, hempty, ?_⟩
  rw [← nodes_items_of_filterGroup? h, ← nodes_groups_of_filterGroup? h, Json.withArrays_nodes]
termination_by sizeOf group

theorem filterGroups_filterGroups (hide : HideList) (groups : List Json) :
    filterGroups hide (filterGroups hide groups) = filterGroups hide groups := by
  rw [filterGroups, filterGroups, List.filterMap_filterMap]
  refine List.filterMap_congr fun g _ => ?_
  cases hleft : filterGroup? hide g with
  | none => rfl
  | some g' => exact filterGroup?_of_filterGroup? hleft

end RegisterImage
