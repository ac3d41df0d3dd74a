import Mathlib
import RegisterImage.Catalog
import RegisterImage.Proofs.Overlay.Documents
import RegisterImage.Proofs.Overlay.Filter

/-!
# Registers left by a hide list

The filter walks the groups of a document and the loader walks all of its nodes. A place is a
register node together with what the loader has come through on the way to it. In documents in
which groups hold groups and plain items, the filter takes out the places of hidden items and
those inside hidden groups, and no others.

## Main definitions

* `Json.children` — the nodes that the loader goes on to.
* `NodePlace`, `places`, `documentPlaces` — register nodes and where they are.
* `Json.IsItem`, `Json.IsGroup`, `Json.IsGrouped` — items, groups and documents of the usual shape.
* `HideList.shows` — the places that a hide list leaves.
* `registers_applyOverlay` — the registers that are loaded after hiding.
-/

namespace RegisterImage

theorem flatMap_attach {α β : Type} (xs : List α) (f : α → List β) :
    xs.attach.flatMap (fun x => f x.1) = xs.flatMap f := by
  rw [List.flatMap_subtype fun _ _ => rfl, List.unattach_attach]

theorem flatMap_filterMap {α β γ : Type} (f : α → Option β) (g : β → List γ) (xs : List α) :
    (xs.filterMap f).flatMap g = xs.flatMap fun x => (f x).elim [] g := by
  induction xs with
  | nil => rfl
  | cons x xs ih => cases hx : f x <;> simp [hx, ih]

theorem flatMap_filter {α β : Type} (p : α → Bool) (g : α → List β) (xs : List α) :
    (xs.filter p).flatMap g = xs.flatMap fun x => if p x then g x else [] := by
  induction xs with
  | nil => rfl
  | cons x xs ih => cases hx : p x <;> simp [hx, ih]

/-! ## Nodes -/

namespace Json

/-- The nodes that are looked into for registers next. -/
def children : Json → List Json
  | arr xs => xs
  | j => j.nodes "items" ++ j.nodes "groups"

/-- The node itself if it describes a register. -/
def own (j : Json) : List Json :=
  if isRegisterNode (j.entries?.getD []) then [j] else []

theorem children_of_isObject {j : Json} (h : j.isObject) :
    j.children = j.nodes "items" ++ j.nodes "groups" := by
  obtain ⟨es, rfl⟩ := exists_of_isObject h
  rfl

theorem sizeOf_lt_of_mem_children {j x : Json} (h : x ∈ j.children) : sizeOf x < sizeOf j := by
  have hnodes (h : x ∈ j.nodes "items" ++ j.nodes "groups") : sizeOf x < sizeOf j := by
    rcases List.mem_append.1 h with h | h <;> exact sizeOf_lt_of_mem_nodes h
  cases j with
  | arr xs =>
    have := List.sizeOf_lt_of_mem (show x ∈ xs from h)
    simp
    omega
  | _ => exact hnodes h

theorem own_withArrays {node : Json} (items groups : List Json) (h : node.own = []) :
    (node.withArrays items groups).own = [] := by
  have hkeys (k : String) : Entries.contains ((node.withArrays items groups).entries?.getD []) k =
      Entries.contains (node.entries?.getD []) k := by
    rw [Bool.eq_iff_iff, Entries.contains, Entries.contains, ← Entries.mem_keys_iff,
      ← Entries.mem_keys_iff]
    exact iff_of_eq (congrArg (k ∈ ·) keys_withArrays)
  unfold own isRegisterNode at h ⊢
  rw [hkeys, hkeys]
  split at h
  · cases h
  · exact if_neg ‹_›

end Json

theorem registerNodes_eq (j : Json) :
    registerNodes j = j.children.flatMap registerNodes ++ j.own := by
  cases j with
  | arr xs =>
    rw [registerNodes, flatMap_attach xs registerNodes]
    exact (List.append_nil _).symm
  | obj es =>
    rw [registerNodes, flatMap_attach _ registerNodes, flatMap_attach _ registerNodes,
      ← List.flatMap_append]
    rfl
  | _ =>
    rw [registerNodes]
    · rfl
    all_goals simp

/-! ## Places -/

/-- A register node and the objects around it, the innermost first. -/
structure NodePlace where
  node : Json
  around : List Json

/-- The places below and at a node in the order in which they are loaded. -/
def places (around : List Json) (j : Json) : List NodePlace :=
  (j.children.attach.flatMap fun x => places (if j.isObject then j :: around else around) x.1) ++
    j.own.map (⟨·, around⟩)
termination_by sizeOf j
decreasing_by exact Json.sizeOf_lt_of_mem_children x.2

theorem places_eq (around : List Json) (j : Json) :
    places around j = j.children.flatMap (places (if j.isObject then j :: around else around)) ++
      j.own.map (⟨·, around⟩) := by
  rw [places, flatMap_attach]

/-- The places in a whole document. -/
def documentPlaces (document : Json) : List NodePlace :=
  (document.get? "groups").elim [] (places [])

/-- By induction on the node, which both walk alike. -/
theorem map_node_places (around : List Json) (j : Json) :
    (places around j).map NodePlace.node = registerNodes j := by
  rw [places_eq, registerNodes_eq, List.map_append, List.map_flatMap, List.map_map]
  congr 1
  · refine List.flatMap_congr fun x hx => ?_
    have := Json.sizeOf_lt_of_mem_children hx
    exact map_node_places _ x
  · exact List.map_id _
termination_by sizeOf j

theorem map_node_documentPlaces (document : Json) :
    (documentPlaces document).map NodePlace.node = documentNodes document := by
  unfold documentPlaces documentNodes
  cases document.get? "groups" with
  | none => rfl
  | some v => exact map_node_places [] v

theorem suffix_around_of_mem_places {around : List Json} {j : Json} {p : NodePlace}
    (h : p ∈ places around j) : around <:+ p.around := by
  rw [places_eq, List.mem_append] at h
  rcases h with h | h
  · obtain ⟨x, hx, hp⟩ := List.mem_flatMap.1 h
    have := Json.sizeOf_lt_of_mem_children hx
    refine List.IsSuffix.trans ?_ (suffix_around_of_mem_places hp)
    split
    · exact List.suffix_cons j around
    · exact List.suffix_rfl
  · obtain ⟨node, -, rfl⟩ := List.mem_map.1 h
    exact List.suffix_rfl
termination_by sizeOf j

/-! ## Documents of the usual shape -/

namespace Json

/-- An item has no items and no groups of its own, and is no array either. -/
def IsItem (j : Json) : Prop :=
  j.children = []

/-- A group is an object that describes no register. It holds items and groups. -/
inductive IsGroup : Json → Prop
  | intro {group : Json} (isObject : group.isObject) (own : group.own = [])
      (items : ∀ i ∈ group.nodes "items", i.IsItem)
      (groups : ∀ g ∈ group.nodes "groups", g.IsGroup) : IsGroup group

/-- A document is an object whose groups are an array of groups. -/
structure IsGrouped (document : Json) : Prop where
  isObject : document.isObject
  groups : ∀ v ∈ document.get? "groups", ∃ groups, v = .arr groups ∧ ∀ g ∈ groups, g.IsGroup

end Json

/-! ## What is left -/

/-- A place is left when neither its node nor a group around it is hidden. -/
def HideList.shows (hide : HideList) (p : NodePlace) : Bool :=
  !hide.hidesItem p.node && p.around.all (!hide.hidesGroup ·)

section

variable {hide : HideList} {around : List Json}

theorem places_group {group : Json} (hobject : group.isObject) (hown : group.own = []) :
    places around group = (group.nodes "items").flatMap (places (group :: around)) ++
      (group.nodes "groups").flatMap (places (group :: around)) := by
  rw [places_eq, hown, if_pos hobject, Json.children_of_isObject hobject, List.flatMap_append,
    List.map_nil, List.append_nil]

/-- Nothing that is inside a hidden group is left. -/
theorem filter_shows_of_hidesGroup {group : Json} (hobject : group.isObject)
    (hown : group.own = []) (hhidden : hide.hidesGroup group) :
    (places around group).filter hide.shows = [] := by
  rw [List.filter_eq_nil_iff, places_group hobject hown, ← List.flatMap_append]
  intro p hp hshows
  obtain ⟨x, -, hp⟩ := List.mem_flatMap.1 hp
  have hmem : group ∈ p.around := (suffix_around_of_mem_places hp).subset List.mem_cons_self
  simp only [HideList.shows, Bool.and_eq_true, List.all_eq_true] at hshows
  simpa [hhidden] using hshows.2 group hmem

theorem shows_item (haround : around.all (!hide.hidesGroup ·)) {i : Json} (hi : i.IsItem) :
    ((places around i).filter hide.shows).map NodePlace.node =
      if hide.hidesItem i then [] else registerNodes i := by
  rw [places_eq, registerNodes_eq, hi, List.flatMap_nil, List.flatMap_nil, List.nil_append,
    List.nil_append]
  unfold Json.own
  by_cases hregister : isRegisterNode (i.entries?.getD []) <;>
    by_cases hhidden : hide.hidesItem i <;>
    simp [hregister, hhidden, HideList.shows, haround, -List.all_eq_true]

theorem shows_items (haround : around.all (!hide.hidesGroup ·)) {group : Json}
    (hitems : ∀ i ∈ group.nodes "items", i.IsItem) :
    (((group.nodes "items").flatMap (places around)).filter hide.shows).map NodePlace.node =
      (hide.itemsLeft group).flatMap registerNodes := by
  rw [HideList.itemsLeft, flatMap_filter, List.filter_flatMap, List.map_flatMap]
  refine List.flatMap_congr fun i hi => ?_
  rw [shows_item haround (hitems i hi)]
  cases hide.hidesItem i <;> rfl

/-- What is left of a group has the register nodes of the items and the groups that are left. -/
theorem registerNodes_left {group : Json} (hobject : group.isObject) (hown : group.own = [])
    (hshown : ¬hide.hidesGroup group) :
    (filterGroup? hide group).elim [] registerNodes =
      (hide.itemsLeft group).flatMap registerNodes ++
        (hide.groupsLeft group).flatMap registerNodes := by
  cases hleft : filterGroup? hide group with
  | none =>
    obtain ⟨hnoItem, hnoGroup⟩ := (filterGroup?_eq_none_iff.1 hleft).resolve_left hshown
    rw [hnoItem, hnoGroup]
    rfl
  | some group' =>
    have hnodes := nodes_items_of_filterGroup? hleft
    have hnodes' := nodes_groups_of_filterGroup? hleft
    obtain ⟨-, -, rfl⟩ := filterGroup?_eq_some_iff.1 hleft
    rw [Option.elim_some, registerNodes_eq, Json.own_withArrays _ _ hown, List.append_nil,
      Json.children_of_isObject (Json.isObject_withArrays.trans hobject), hnodes, hnodes',
      List.flatMap_append]

/-- By induction on the group: its items are shown one by one, and its groups as a whole. -/
theorem registerNodes_filterGroup? {group : Json} (hgroup : group.IsGroup)
    (haround : around.all (!hide.hidesGroup ·)) :
    (filterGroup? hide group).elim [] registerNodes =
      ((places around group).filter hide.shows).map NodePlace.node := by
  induction hgroup generalizing around with
  | @intro group hobject hown hitems _ ih =>
    by_cases hhidden : hide.hidesGroup group
    · rw [filterGroup?_eq_none_iff.2 (.inl hhidden),
        filter_shows_of_hidesGroup hobject hown hhidden]
      rfl
    · have haround' : (group :: around).all (!hide.hidesGroup ·) := by simp_all
      have hgroups : (((group.nodes "groups").flatMap (places (group :: around))).filter
          hide.shows).map NodePlace.node = (hide.groupsLeft group).flatMap registerNodes := by
        rw [HideList.groupsLeft, filterGroups, flatMap_filterMap, List.filter_flatMap,
          List.map_flatMap]
        exact List.flatMap_congr fun g hg => (ih g hg haround').symm
      rw [registerNodes_left hobject hown hhidden, places_group hobject hown, List.filter_append,
        List.map_append, shows_items haround' hitems, hgroups]

/-- Once something is hidden, the groups that are left are looked into and nothing else. -/
theorem documentNodes_hideNodes_of_not_isEmpty {document : Json} (hobject : document.isObject)
    (hempty : ¬hide.isEmpty) : documentNodes (hideNodes hide document) =
      (filterGroups hide (document.nodes "groups")).flatMap registerNodes := by
  have hget : (hideNodes hide document).get? "groups" = _ := get?_hideNodes hobject "groups"
  rw [documentNodes, hget, if_pos ⟨rfl, hempty⟩, Option.elim_some, registerNodes_eq]
  exact List.append_nil _

/-- The register nodes of a document without what is hidden are those at the places left. -/
theorem documentNodes_hideNodes {document : Json} (h : document.IsGrouped) (hide : HideList) :
    documentNodes (hideNodes hide document) =
      ((documentPlaces document).filter hide.shows).map NodePlace.node := by
  by_cases hempty : hide.isEmpty
  · obtain ⟨hgroups, hitems⟩ : hide.groups = [] ∧ hide.items = [] := by
      simpa [HideList.isEmpty] using hempty
    have hall : (documentPlaces document).filter hide.shows = documentPlaces document :=
      List.filter_eq_self.2 fun p _ => by
        simp [HideList.shows, HideList.hidesItem, HideList.hidesGroup, hgroups, hitems]
    rw [hall, map_node_documentPlaces, hideNodes, if_pos hempty]
  · rw [documentNodes_hideNodes_of_not_isEmpty h.isObject hempty, filterGroups, flatMap_filterMap]
    cases hgroups : document.get? "groups" with
    | none => simp [documentPlaces, hgroups, Json.nodes, Json.array?]
    | some v =>
      obtain ⟨groups, rfl, hall⟩ := h.groups v hgroups
      have hplaces : documentPlaces document = groups.flatMap (places []) := by
        rw [documentPlaces, hgroups, Option.elim_some, places_eq]
        exact List.append_nil _
      rw [hplaces, List.filter_flatMap, List.map_flatMap,
        Json.nodes_of_array? (Json.array?_eq_some_iff.2 hgroups)]
      exact List.flatMap_congr fun g hg => registerNodes_filterGroup? (hall g hg) rfl

end

/-! ## Catalogs -/

/-- The registers of a document with their places. -/
def placedRegisters (document : Json) : List (NodePlace × Register) :=
  (documentPlaces document).filterMap fun p => (Register.ofJson? p.node).map (p, ·)

theorem filterMap_node_places (keep : NodePlace → Bool) (ps : List NodePlace) :
    ((ps.filter keep).map NodePlace.node).filterMap Register.ofJson? =
      ((ps.filterMap fun p => (Register.ofJson? p.node).map (p, ·)).filter (keep ·.1)).map
        Prod.snd := by
  induction ps with
  | nil => rfl
  | cons p ps ih =>
    cases hkept : keep p <;> cases hread : Register.ofJson? p.node <;>
      simp [hkept, hread, ih]

/-- The registers loaded after hiding are those loaded without it whose node is not hidden, and that
are in no hidden group, in the same order. The opening and the closing write are the same. -/
theorem registers_applyOverlay {document : Json} {overlay : Option Json}
    (h : (mergeOverlay document overlay).IsGrouped) (hide : HideList) :
    ∃ c c', Catalog.ofDocument (mergeOverlay document overlay) = .ok c ∧
      Catalog.ofDocument (applyOverlay document overlay hide) = .ok c' ∧
      c.registers = (placedRegisters (mergeOverlay document overlay)).map Prod.snd ∧
      c'.registers = ((placedRegisters (mergeOverlay document overlay)).filter
        ((allHidden overlay hide).shows ·.1)).map Prod.snd ∧
      c'.opening = c.opening ∧ c'.closing = c.closing := by
  have hobject := h.isObject
  have hobject' : (applyOverlay document overlay hide).isObject := by
    rwa [isObject_applyOverlay, ← isObject_mergeOverlay document overlay]
  have hfirst (keys : List String) (hkeys : "groups" ∉ keys) :
      (applyOverlay document overlay hide).first? keys =
        (mergeOverlay document overlay).first? keys := by
    refine Json.first?_congr fun k hk => ?_
    have hne : k ≠ "groups" := ne_of_mem_of_not_mem hk hkeys
    rw [applyOverlay_eq, get?_hideNodes hobject, if_neg (hne ·.1)]
  refine ⟨_, _, if_pos hobject, if_pos hobject', ?_, ?_, ?_, ?_⟩
  · have hall :=
      filterMap_node_places (fun _ => true) (documentPlaces (mergeOverlay document overlay))
    simpa [map_node_documentPlaces, placedRegisters] using hall
  · change (documentNodes _).filterMap _ = _
    rw [applyOverlay_eq, documentNodes_hideNodes h]
    exact filterMap_node_places _ _
  · have hopening := hfirst ["cc_prefix", "ccPrefix", "prefix"] (by decide)
    exact congrArg (·.bind DeviceWrite.ofJson?) hopening
  · have hclosing := hfirst ["cc_suffix", "ccSuffix", "suffix"] (by decide)
    exact congrArg (·.bind DeviceWrite.ofJson?) hclosing

theorem registers_applyOverlay_of_emptied_group :
    let register (code : String) : Json :=
      .obj [("code", .str code), ("address", .str "0x400"), ("size_bytes", .int 1)]
    let document : Json := .obj [("cc_prefix", .obj [("address", .int 0), ("value", .int 1)]),
      ("groups", .arr [
        .obj [("code", .str "pcie"), ("items", .arr [register "GEN", register "SWAP"]),
          ("groups", .arr [.obj [("code", .str "lane"), ("groups", .arr [
            .obj [("items", .arr [register "SWAP", register ""])]])]])]])]
    let overlay : Json := .obj [("hide_items", .arr [.str "SWAP"]), ("groups", .arr [
      .obj [("code", .str "usb"), ("items", .arr [register "PORT"])],
      .obj [("code", .str "pcie"), ("items", .arr [
        .obj [("code", .str "L1"), ("address", .int 0)]])]])]
    let hide : HideList := ⟨["usb"], []⟩
    (mergeOverlay document (some overlay)).IsGrouped ∧
    ∃ c c', Catalog.ofDocument (mergeOverlay document (some overlay)) = .ok c ∧
      Catalog.ofDocument (applyOverlay document (some overlay) hide) = .ok c' ∧
      c.registers.map (·.code) = ["GEN", "SWAP", "SWAP", "", "PORT"] ∧
      c'.registers.map (·.code) = ["GEN", ""] ∧
      c'.opening = c.opening ∧ c'.closing = c.closing := by
  intro register document overlay hide
  have hitem (code : String) : (register code).IsItem := rfl
  let items : Json := .obj [("items", .arr [register "SWAP", register ""])]
  let lane : Json := .obj [("code", .str "lane"), ("groups", .arr [items])]
  let l1 : Json := .obj [("code", .str "L1"), ("address", .int 0)]
  let pcie : Json := .obj [("code", .str "pcie"),
    ("items", .arr [register "GEN", register "SWAP", l1]), ("groups", .arr [lane])]
  let usb : Json := .obj [("code", .str "usb"), ("items", .arr [register "PORT"])]
  have hitems : items.IsGroup := .intro rfl rfl
    (List.forall_mem_cons.2 ⟨hitem _, List.forall_mem_singleton.2 (hitem _)⟩)
    (List.forall_mem_nil _)
  have hlane : lane.IsGroup :=
    .intro rfl rfl (List.forall_mem_nil _) (List.forall_mem_singleton.2 hitems)
  have hpcie : pcie.IsGroup := .intro rfl rfl
    (List.forall_mem_cons.2
      ⟨hitem _, List.forall_mem_cons.2 ⟨hitem _, List.forall_mem_singleton.2 rfl⟩⟩)
    (List.forall_mem_singleton.2 hlane)
  have husb : usb.IsGroup :=
    .intro rfl rfl (List.forall_mem_singleton.2 (hitem _)) (List.forall_mem_nil _)
  have hget : (mergeOverlay document (some overlay)).get? "groups" = some (.arr [pcie, usb]) := by
    cbv
  have hgrouped : (mergeOverlay document (some overlay)).IsGrouped := by
    refine ⟨isObject_mergeOverlay document _, fun v hv => ?_⟩
    obtain rfl := Option.some.inj (hget.symm.trans hv)
    exact ⟨_, rfl, List.forall_mem_cons.2 ⟨hpcie, List.forall_mem_singleton.2 husb⟩⟩
  obtain ⟨c, c', hc, hc', hregisters, hregisters', hopening, hclosing⟩ :=
    registers_applyOverlay hgrouped hide
  refine ⟨hgrouped, c, c', hc, hc', ?_, ?_, hopening, hclosing⟩
  · rw [hregisters]
    cbv
  · rw [hregisters']
    cbv

end RegisterImage
