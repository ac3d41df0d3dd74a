import Mathlib
import RegisterImage.Proofs.Overlay.Places

/-!
# Hidden registers that are loaded

The filter looks for hidden items among the items of groups. The loader also reads groups that
describe registers themselves, and goes on below items. Hidden registers are loaded from there, and
from nowhere else.

## Main definitions

* `Json.HasGroup` — a group and the groups in it, at any depth.
* `Json.strays` — the register nodes that belong to a group without being an item of it.
* `mem_registers_of_hidden_iff` — the hidden registers that are loaded.
-/

namespace RegisterImage

namespace Json

/-- A group is in itself and in every group around it. -/
inductive HasGroup : Json → Json → Prop
  | self (group : Json) : HasGroup group group
  | child {group child g : Json} (hchild : child ∈ group.nodes "groups") (h : HasGroup child g) :
      HasGroup group g

/-- The register nodes that belong to a group but are not among its items: the group itself and
those below its items. -/
def strays (group : Json) : List Json :=
  group.own ++ (group.nodes "items").flatMap fun i => i.children.flatMap registerNodes

theorem isObject_of_mem_own {j node : Json} (h : node ∈ j.own) : node = j ∧ node.isObject := by
  unfold own at h
  split at h
  · obtain rfl := List.mem_singleton.1 h
    refine ⟨rfl, ?_⟩
    cases node with
    | obj es => rfl
    | _ => contradiction
  · cases h

end Json

/-- The key of a register node is the code of the register, unless that is empty. -/
theorem nodeKey_of_ofJson? {node : Json} {r : Register} (hobject : node.isObject)
    (h : Register.ofJson? node = some r) (hcode : r.code ≠ "") : node.nodeKey = r.code := by
  obtain ⟨es, rfl⟩ := Json.exists_of_isObject hobject
  unfold Register.ofJson? at h
  obtain ⟨field, hfield, hbind⟩ := Option.bind_eq_some_iff.1 h
  obtain rfl : field = (Json.obj es).get? := (Option.some.inj hfield).symm
  obtain ⟨code, hread, hbind⟩ := Option.bind_eq_some_iff.1 hbind
  iterate 12 obtain ⟨_, -, hbind⟩ := Option.bind_eq_some_iff.1 hbind
  have hcode' : code = r.code := congrArg Register.code (Option.some.inj hbind)
  have hstring : ((Json.obj es).get? "code").bind Json.string? = some r.code := hcode' ▸ hread
  rw [Json.nodeKey, hstring, Option.filter_some, if_pos (by simpa using hcode)]
  rfl

section

variable {hide : HideList} {group group' node : Json}

theorem exists_filterGroup?_of_mem (h : filterGroup? hide group = some group') {child : Json}
    (hchild : child ∈ group'.nodes "groups") : ∃ g, filterGroup? hide g = some child := by
  rw [nodes_groups_of_filterGroup? h, HideList.groupsLeft] at hchild
  obtain ⟨g, -, hg⟩ := List.mem_filterMap.1 hchild
  exact ⟨g, hg⟩

/-- Every group in a group that is left is itself what is left of a group. -/
theorem Json.HasGroup.exists_filterGroup? {g : Json} (hg : group'.HasGroup g)
    (h : filterGroup? hide group = some group') : ∃ g₀, filterGroup? hide g₀ = some g := by
  induction hg generalizing group with
  | self => exact ⟨group, h⟩
  | child hchild _ ih =>
    obtain ⟨g, hg⟩ := exists_filterGroup?_of_mem h hchild
    exact ih hg

theorem not_hidesItem_of_filterGroup? (h : filterGroup? hide group = some group') {i : Json}
    (hi : i ∈ group'.nodes "items") : ¬hide.hidesItem i := by
  rw [nodes_items_of_filterGroup? h, HideList.itemsLeft] at hi
  simpa using (List.mem_filter.1 hi).2

theorem isObject_of_left (h : filterGroup? hide group = some group') : group'.isObject := by
  have hobject := isObject_of_filterGroup? h
  obtain ⟨-, -, rfl⟩ := filterGroup?_eq_some_iff.1 h
  exact Json.isObject_withArrays.trans hobject

theorem Json.HasGroup.mem_registerNodes {g : Json} (hg : group'.HasGroup g)
    (h : filterGroup? hide group = some group') (hnode : node ∈ registerNodes g) :
    node ∈ registerNodes group' := by
  induction hg generalizing group with
  | self => exact hnode
  | @child group' child g hchild _ ih =>
    obtain ⟨child₀, hchild₀⟩ := exists_filterGroup?_of_mem h hchild
    rw [registerNodes_eq, Json.children_of_isObject (isObject_of_left h)]
    refine List.mem_append_left _ (List.mem_flatMap.2 ⟨child, ?_, ih hchild₀ hnode⟩)
    exact List.mem_append_right _ hchild

theorem mem_registerNodes_of_mem_strays (hobject : group.isObject) (h : node ∈ group.strays) :
    node ∈ registerNodes group := by
  rw [registerNodes_eq, Json.children_of_isObject hobject, List.mem_append]
  rcases List.mem_append.1 h with h | h
  · exact .inr h
  · obtain ⟨i, hi, hnode⟩ := List.mem_flatMap.1 h
    refine .inl (List.mem_flatMap.2 ⟨i, List.mem_append_left _ hi, ?_⟩)
    rw [registerNodes_eq]
    exact List.mem_append_left _ hnode

/-- A register node in a group that is left is an item of a group or belongs to one in another way.
By induction on the group, in the order of the loader. -/
theorem exists_group_of_mem_registerNodes {group group' : Json}
    (h : filterGroup? hide group = some group') (hnode : node ∈ registerNodes group') :
    ∃ g, group'.HasGroup g ∧ (node ∈ g.strays ∨ node ∈ g.nodes "items" ∧ node.isObject) := by
  rw [registerNodes_eq, Json.children_of_isObject (isObject_of_left h), List.flatMap_append,
    List.mem_append, List.mem_append] at hnode
  rcases hnode with (hnode | hnode) | hnode
  · obtain ⟨i, hi, hnode⟩ := List.mem_flatMap.1 hnode
    refine ⟨group', .self group', ?_⟩
    rw [registerNodes_eq, List.mem_append] at hnode
    rcases hnode with hnode | hnode
    · exact .inl (List.mem_append_right _ (List.mem_flatMap.2 ⟨i, hi, hnode⟩))
    · obtain ⟨rfl, hobject⟩ := Json.isObject_of_mem_own hnode
      exact .inr ⟨hi, hobject⟩
  · obtain ⟨child, hchild, hnode⟩ := List.mem_flatMap.1 hnode
    obtain ⟨child₀, hchild₀⟩ := exists_filterGroup?_of_mem h hchild
    have := Json.sizeOf_lt_of_mem_nodes hchild
    obtain ⟨g, hg, hnode⟩ := exists_group_of_mem_registerNodes hchild₀ hnode
    exact ⟨g, .child hchild hg, hnode⟩
  · exact ⟨group', .self group', .inl (List.mem_append_left _ hnode)⟩
termination_by sizeOf group'

end

/-! ## Catalogs -/

section

variable {document : Json} {overlay : Option Json} {hide : HideList} {c : Catalog}

theorem registers_of_ofDocument (hc : Catalog.ofDocument document = .ok c) :
    document.isObject ∧ c.registers = (documentNodes document).filterMap Register.ofJson? := by
  unfold Catalog.ofDocument at hc
  split at hc
  · rename_i hobject
    exact ⟨hobject, congrArg Catalog.registers (Except.ok.inj hc).symm⟩
  · cases hc

/-- A register with a hidden code is loaded exactly when a group that is left is that register or
has it below an item. -/
theorem mem_registers_of_hidden_iff
    (hc : Catalog.ofDocument (applyOverlay document overlay hide) = .ok c) {r : Register}
    (hcode : r.code ≠ "") (hhidden : r.code ∈ (allHidden overlay hide).items) :
    r ∈ c.registers ↔ ∃ top ∈ (applyOverlay document overlay hide).nodes "groups",
      ∃ group, top.HasGroup group ∧ ∃ node ∈ group.strays, Register.ofJson? node = some r := by
  obtain ⟨hobject, hregisters⟩ := registers_of_ofDocument hc
  rw [isObject_applyOverlay] at hobject
  have hempty : ¬(allHidden overlay hide).isEmpty := by
    intro hempty
    have : (allHidden overlay hide).items = [] := by simp_all [HideList.isEmpty]
    simp [this] at hhidden
  have hmerged : (mergeOverlay document overlay).isObject :=
    (isObject_mergeOverlay ..).trans hobject
  rw [hregisters, applyOverlay_eq, nodes_hideNodes hmerged, if_neg hempty,
    documentNodes_hideNodes_of_not_isEmpty hmerged hempty, List.mem_filterMap]
  constructor
  · rintro ⟨node, hnode, hread⟩
    obtain ⟨top, htop, hnode⟩ := List.mem_flatMap.1 hnode
    obtain ⟨top₀, -, hleft⟩ := List.mem_filterMap.1 htop
    obtain ⟨group, hgroup, hstray | ⟨hitem, hobject⟩⟩ :=
      exists_group_of_mem_registerNodes hleft hnode
    · exact ⟨top, htop, group, hgroup, node, hstray, hread⟩
    · obtain ⟨group₀, hgroup₀⟩ := hgroup.exists_filterGroup? hleft
      have hshown := not_hidesItem_of_filterGroup? hgroup₀ hitem
      have hkey := nodeKey_of_ofJson? hobject hread hcode
      simp [HideList.hidesItem, hkey, hcode, hhidden] at hshown
  · rintro ⟨top, htop, group, hgroup, node, hstray, hread⟩
    obtain ⟨top₀, -, hleft⟩ := List.mem_filterMap.1 htop
    obtain ⟨group₀, hgroup₀⟩ := hgroup.exists_filterGroup? hleft
    have hnode := mem_registerNodes_of_mem_strays (isObject_of_left hgroup₀) hstray
    exact ⟨node, List.mem_flatMap.2 ⟨top, htop, hgroup.mem_registerNodes hleft hnode⟩, hread⟩

theorem mem_registers_of_hidden_iff_below_item :
    let document : Json := .obj [("groups", .arr [.obj [("code", .str "g"), ("items", .arr [
      .obj [("code", .str "Y"), ("address", .str "0x404"), ("size_bytes", .int 1), ("items", .arr [
        .obj [("code", .str "X"), ("address", .str "0x400"), ("size_bytes", .int 1)]])]])]])]
    let overlay : Json := .obj [("hide_items", .arr [.str "X"])]
    let hidden : Register := ⟨"X", none, none, .text "0x400", some (.int 1), none, none, false,
      .plain, none, none, none, none⟩
    hidden.code ≠ "" ∧ hidden.code ∈ (allHidden (some overlay) ⟨[], []⟩).items ∧
      ∃ c, Catalog.ofDocument (applyOverlay document (some overlay) ⟨[], []⟩) = .ok c ∧
        hidden ∈ c.registers ∧
        ∃ top ∈ (applyOverlay document (some overlay) ⟨[], []⟩).nodes "groups",
          ∃ group, top.HasGroup group ∧
            ∃ node ∈ group.strays, Register.ofJson? node = some hidden := by
  intro document overlay hidden
  have hcode : hidden.code ≠ "" := by decide
  have hhidden : hidden.code ∈ (allHidden (some overlay) ⟨[], []⟩).items := by decide
  let outer : Register := ⟨"Y", none, none, .text "0x404", some (.int 1), none, none, false, .plain,
    none, none, none, none⟩
  let c : Catalog := ⟨document, [hidden, outer], none, none, []⟩
  have hc : Catalog.ofDocument (applyOverlay document (some overlay) ⟨[], []⟩) = .ok c := by cbv
  have hmem : hidden ∈ c.registers := List.mem_cons_self
  exact ⟨hcode, hhidden, c, hc, hmem, (mem_registers_of_hidden_iff hc hcode hhidden).1 hmem⟩

/-- A register below an item is loaded although its code is hidden. -/
theorem hidden_register_loaded :
    let document : Json := .obj [("groups", .arr [.obj [("code", .str "g"), ("items", .arr [
      .obj [("code", .str "Y"), ("address", .str "0x404"), ("size_bytes", .int 1), ("items", .arr [
        .obj [("code", .str "X"), ("address", .str "0x400"), ("size_bytes", .int 1)]])]])]])]
    ∃ c, Catalog.ofDocument (applyOverlay document none ⟨[], ["X"]⟩) = .ok c ∧
      ∃ r ∈ c.registers, r.code ≠ "" ∧ r.code ∈ (allHidden none ⟨[], ["X"]⟩).items := by
  intro document
  let hidden : Register := ⟨"X", none, none, .text "0x400", some (.int 1), none, none, false,
    .plain, none, none, none, none⟩
  let outer : Register := ⟨"Y", none, none, .text "0x404", some (.int 1), none, none, false, .plain,
    none, none, none, none⟩
  let c : Catalog := ⟨document, [hidden, outer], none, none, []⟩
  have hc : Catalog.ofDocument (applyOverlay document none ⟨[], ["X"]⟩) = .ok c := by cbv
  exact ⟨c, hc, hidden, List.mem_cons_self, by decide, by decide⟩

end

end RegisterImage
