import Mathlib
import RegisterImage.Proofs.Overlay.Documents
import RegisterImage.Proofs.Overlay.Filter

/-!
# Overlays applied twice

The second time an overlay is laid on a document it finds its own nodes there. It merges them with
themselves, adds again what had been hidden or had become empty, and the filter takes exactly that
out again.

## Main definitions

* `DistinctGroups`, `KeyedGroups` — group trees in which no key among siblings is ambiguous.
* `Stable` — what overlay groups leave of groups stays when they are laid on it again.
* `Laid` — a group that an overlay group came to.
* `KeyedGroups.stable` — overlay groups are stable on all groups with distinct keys.
* `applyOverlay_twice` — an overlay applied twice is an overlay applied once.
-/

namespace RegisterImage

/-- On every level the groups with keys have different ones. -/
inductive DistinctGroups : List Json → Prop
  | intro {groups : List Json} (distinct : DistinctKeys groups)
      (below : ∀ g ∈ groups, DistinctGroups (g.nodes "groups")) : DistinctGroups groups

/-- On every level all groups and all items have keys, and different ones. -/
inductive KeyedGroups : List Json → Prop
  | intro {groups : List Json} (keyed : Keyed groups)
      (items : ∀ g ∈ groups, Keyed (g.nodes "items"))
      (below : ∀ g ∈ groups, KeyedGroups (g.nodes "groups")) : KeyedGroups groups

theorem DistinctGroups.nil : DistinctGroups [] :=
  ⟨.nil, by simp⟩

theorem KeyedGroups.nil : KeyedGroups [] :=
  ⟨.nil, by simp, by simp⟩

theorem mergeItems_nil {overlays : List Json} (h : Keyed overlays) :
    mergeItems [] overlays = overlays :=
  mergeNodes_eq_append h fun _ _ => rfl

theorem mergeGroups_nil {overlays : List Json} (h : Keyed overlays) :
    mergeGroups [] overlays = overlays :=
  mergeNodes_eq_append h fun _ _ => rfl

/-! ## Items -/

section Items

variable {overlays : List Json}

/-- Items are merged twice, with those left out that a test of their keys leaves out. -/
theorem filter_mergeItems_twice {p : Json → Bool} (hp : ∀ n n', n'.nodeKey = n.nodeKey → p n' = p n)
    (hkeyed : Keyed overlays) (hunique : ∀ o ∈ overlays, o.UniqueKeys) (base : List Json) :
    (mergeItems ((mergeItems base overlays).filter p) overlays).filter p =
      (mergeItems base overlays).filter p := by
  have hmerge := keepsKeys_shallowMerge hunique
  have hguard {n n' : Json} (h : Option.guard p n = some n') : n' = n ∧ p n := by
    obtain ⟨rfl, hn⟩ := Option.guard_eq_some_iff.1 h
    exact ⟨rfl, hn⟩
  simp only [← List.filterMap_eq_filter]
  refine filterMap_mergeNodes_twice hkeyed hmerge ?_ ?_ ?_ fun o ho m hm => ?_
  · intro n n' h
    rw [(hguard h).1]
  · intro n n' h
    obtain ⟨rfl, hn⟩ := hguard h
    exact h
  · intro n _ n' _ _ hkey hn
    rw [Option.guard_eq_none_iff] at hn ⊢
    rwa [hp n n' hkey]
  · obtain ⟨hkey, hagain⟩ : m.nodeKey = o.nodeKey ∧ shallowMerge m o = m := by
      have hkeys := (hunique o ho).nodup_keys
      cases hfound : nodeAt? base o.nodeKey with
      | none =>
        rw [hm, hfound, Option.elim_none]
        exact ⟨rfl, shallowMerge_self hkeys (Json.isObject_of_nodeKey (hkeyed.1 o ho))⟩
      | some n =>
        rw [hm, hfound, Option.elim_some]
        exact ⟨hmerge o ho n (nodeKey_of_nodeAt? hfound), shallowMerge_shallowMerge n hkeys⟩
    constructor
    · intro hn
      rw [Option.guard_eq_none_iff] at hn ⊢
      rwa [← hp o m hkey]
    · intro m' h
      obtain ⟨rfl, -⟩ := hguard h
      rwa [hagain]

/-- Where all merged items are left out, the overlay items are too. -/
theorem filter_eq_nil_of_mergeItems {p : Json → Bool}
    (hp : ∀ n n', n'.nodeKey = n.nodeKey → p n' = p n) (hkeyed : Keyed overlays)
    (hunique : ∀ o ∈ overlays, o.UniqueKeys) {base : List Json}
    (h : (mergeItems base overlays).filter p = []) : overlays.filter p = [] := by
  rw [List.filter_eq_nil_iff] at h ⊢
  intro o ho hshown
  have hfound := hkeyed.nodeAt?_mergeNodes (keepsKeys_shallowMerge hunique) base ho
  apply h _ (mem_of_nodeAt? hfound)
  rwa [hp o _ (nodeKey_of_nodeAt? hfound)]

end Items

/-! ## One group -/

/-- Overlay groups merged into `base` leave no more than what they left before when they are merged
in again, be it with the filter in between or without it. -/
structure Stable (hide : HideList) (base overlays : List Json) : Prop where
  merged : mergeGroups (mergeGroups base overlays) overlays = mergeGroups base overlays
  filtered :
    filterGroups hide (mergeGroups (filterGroups hide (mergeGroups base overlays)) overlays) =
      filterGroups hide (mergeGroups base overlays)
  emptied : filterGroups hide (mergeGroups base overlays) = [] → filterGroups hide overlays = []

/-- What an overlay group came to: itself, or a group that it was merged into. -/
structure Laid (hide : HideList) (group overlay : Json) : Prop where
  covers : Covers group overlay
  nodeKey_eq : group.nodeKey = overlay.nodeKey
  unique : overlay.UniqueKeys
  keyed_items : Keyed (overlay.nodes "items")
  items : ∃ base, group.nodes "items" = mergeItems base (overlay.nodes "items")
  groups : ∃ base, group.nodes "groups" = mergeGroups base (overlay.nodes "groups") ∧
    Stable hide base (overlay.nodes "groups")

namespace Laid

variable {hide : HideList} {base group group' overlay : Json}

theorem self (hobject : overlay.isObject) (hunique : overlay.UniqueKeys)
    (hitems : Keyed (overlay.nodes "items")) (hgroups : Keyed (overlay.nodes "groups"))
    (hstable : Stable hide [] (overlay.nodes "groups")) : Laid hide overlay overlay where
  covers := .self hobject hunique.nodup_keys
  nodeKey_eq := rfl
  unique := hunique
  keyed_items := hitems
  items := ⟨[], (mergeItems_nil hitems).symm⟩
  groups := ⟨[], (mergeGroups_nil hgroups).symm, hstable⟩

theorem mergeGroup (hbase : base.UniqueKeys) (hunique : overlay.UniqueKeys)
    (hkey : base.nodeKey = overlay.nodeKey) (hitems : Keyed (overlay.nodes "items"))
    (hstable : Stable hide (base.nodes "groups") (overlay.nodes "groups")) :
    Laid hide (mergeGroup base overlay) overlay where
  covers := .mergeGroup hbase.nodup_keys hunique.nodup_keys
  nodeKey_eq := nodeKey_mergeGroup hunique.nodup_keys hkey
  unique := hunique
  keyed_items := hitems
  items := ⟨_, nodes_mergeGroup_items hunique.nodup_keys⟩
  groups := ⟨_, nodes_mergeGroup_groups hunique.nodup_keys, hstable⟩

section

variable (h : Laid hide group overlay)
include h

theorem unique_items : ∀ o ∈ overlay.nodes "items", o.UniqueKeys :=
  fun _ => h.unique.of_mem_nodes

theorem mergeGroup_eq_self : RegisterImage.mergeGroup group overlay = group := by
  obtain ⟨items, hitems⟩ := h.items
  obtain ⟨groups, hgroups, hstable⟩ := h.groups
  have hitems' : mergeItems (group.nodes "items") (overlay.nodes "items") =
      group.nodes "items" := by
    have := filter_mergeItems_twice (p := fun _ => true) (fun _ _ _ => rfl) h.keyed_items
      h.unique_items items
    simpa only [hitems, List.filter_true] using this
  have hgroups' : mergeGroups (group.nodes "groups") (overlay.nodes "groups") =
      group.nodes "groups" := by
    rw [hgroups, hstable.merged]
  rw [h.covers.mergeGroup_eq, hitems', hgroups', Json.withArrays_nodes]

/-- The overlay group is not left where what it came to is not. -/
theorem filterGroup?_eq_none (hdropped : filterGroup? hide group = none) :
    filterGroup? hide overlay = none := by
  obtain ⟨items, hitems⟩ := h.items
  obtain ⟨groups, hgroups, hstable⟩ := h.groups
  rw [filterGroup?_eq_none_iff] at hdropped ⊢
  rcases hdropped with hhidden | ⟨hnoItem, hnoGroup⟩
  · left
    rwa [← hidesGroup_congr hide h.nodeKey_eq]
  · right
    rw [HideList.itemsLeft, hitems] at hnoItem
    rw [HideList.groupsLeft, hgroups] at hnoGroup
    refine ⟨filter_eq_nil_of_mergeItems (fun n n' hkey => ?_) h.keyed_items h.unique_items hnoItem,
      hstable.emptied hnoGroup⟩
    rw [hidesItem_congr hide hkey]

theorem mergeItems_itemsLeft :
    (mergeItems (hide.itemsLeft group) (overlay.nodes "items")).filter (!hide.hidesItem ·) =
      hide.itemsLeft group := by
  obtain ⟨items, hitems⟩ := h.items
  rw [HideList.itemsLeft, hitems]
  refine filter_mergeItems_twice (fun n n' hkey => ?_) h.keyed_items h.unique_items items
  rw [hidesItem_congr hide hkey]

theorem mergeGroups_groupsLeft :
    filterGroups hide (mergeGroups (hide.groupsLeft group) (overlay.nodes "groups")) =
      hide.groupsLeft group := by
  obtain ⟨groups, hgroups, hstable⟩ := h.groups
  rw [HideList.groupsLeft, hgroups, hstable.filtered]

/-- What is left of a group takes the overlay group in again. -/
theorem filterGroup?_mergeGroup (hleft : filterGroup? hide group = some group') :
    filterGroup? hide (RegisterImage.mergeGroup group' overlay) = some group' := by
  have hkey := nodeKey_of_filterGroup? hleft
  have hitems := nodes_items_of_filterGroup? hleft
  have hgroups := nodes_groups_of_filterGroup? hleft
  obtain ⟨hshown, hempty, hgroup'⟩ := filterGroup?_eq_some_iff.1 hleft
  have hcovers : Covers group' overlay := hgroup' ▸ h.covers.withArrays _ _
  rw [hcovers.mergeGroup_eq, hitems, hgroups]
  set merged := group'.withArrays (mergeItems (hide.itemsLeft group) (overlay.nodes "items"))
    (mergeGroups (hide.groupsLeft group) (overlay.nodes "groups")) with hmerged
  have hmergedItems : hide.itemsLeft merged = hide.itemsLeft group := by
    rw [HideList.itemsLeft, Json.nodes_withArrays_items hcovers.isObject fun hnone => ?_,
      h.mergeItems_itemsLeft]
    rw [hcovers.nodes_overlay hnone, ← hitems, Json.nodes_of_array?_eq_none hnone]
    rfl
  have hmergedGroups : hide.groupsLeft merged = hide.groupsLeft group := by
    rw [HideList.groupsLeft, Json.nodes_withArrays_groups hcovers.isObject fun hnone => ?_,
      h.mergeGroups_groupsLeft]
    rw [hcovers.nodes_overlay hnone, ← hgroups, Json.nodes_of_array?_eq_none hnone]
    rfl
  have hmergedKey : merged.nodeKey = group.nodeKey := Json.nodeKey_withArrays.trans hkey
  rw [filterGroup?_eq_some_iff, hidesGroup_congr hide hmergedKey, hmergedItems, hmergedGroups]
  refine ⟨hshown, hempty, ?_⟩
  rw [hmerged, Json.withArrays_withArrays hcovers.isObject hcovers.nodup_keys, ← hitems, ← hgroups,
    Json.withArrays_nodes]

end

end Laid

/-! ## All groups -/

section Groups

variable {hide : HideList} {base overlays : List Json}

/-- Groups are stable when each overlay group is laid on what it came to. -/
theorem stable_of_laid (hbase : DistinctKeys base) (hkeyed : Keyed overlays)
    (hunique : ∀ o ∈ overlays, o.UniqueKeys)
    (hlaid : ∀ o ∈ overlays, Laid hide ((nodeAt? base o.nodeKey).elim o (mergeGroup · o)) o) :
    Stable hide base overlays := by
  have hmerge := keepsKeys_mergeGroup hunique
  have hdistinct : DistinctKeys (mergeGroups base overlays) := hbase.mergeNodes hkeyed hmerge
  refine ⟨?_, ?_, fun hempty => ?_⟩
  · have hself {n n' : Json} (h : some n = some n') : n' = n := (Option.some.inj h).symm
    have htwice :
        (mergeGroups ((mergeGroups base overlays).filterMap some) overlays).filterMap some =
          (mergeGroups base overlays).filterMap some := by
      refine filterMap_mergeNodes_twice hkeyed hmerge ?_ ?_ (by simp) ?_
      · intro n n' h
        rw [hself h]
      · intro n n' h
        rfl
      · rintro o ho _ rfl
        refine ⟨by simp, fun m' h => ?_⟩
        rw [hself h, (hlaid o ho).mergeGroup_eq_self]
    simpa only [List.filterMap_some] using htwice
  · refine filterMap_mergeNodes_twice hkeyed hmerge (fun _ _ => nodeKey_of_filterGroup?)
      (fun _ _ => filterGroup?_of_filterGroup?) ?_ ?_
    · intro n hn n' hn' hne hkey hdropped
      rwa [← hdistinct.eq_of_nodeKey_eq hn hn' hne hkey.symm]
    · rintro o ho _ rfl
      exact ⟨(hlaid o ho).filterGroup?_eq_none, fun _ => (hlaid o ho).filterGroup?_mergeGroup⟩
  · rw [filterGroups, List.filterMap_eq_nil_iff] at hempty ⊢
    intro o ho
    have hfound := hkeyed.nodeAt?_mergeNodes hmerge base ho
    exact (hlaid o ho).filterGroup?_eq_none (hempty _ (mem_of_nodeAt? hfound))

/-- By induction on the overlay groups: what one of them came to has, as its groups, those of the
overlay group merged into others. -/
theorem KeyedGroups.stable (hkeyed : KeyedGroups overlays) (hide : HideList) {base : List Json}
    (hunique : ∀ o ∈ overlays, o.UniqueKeys) (hbase : DistinctGroups base)
    (hbaseUnique : ∀ n ∈ base, n.UniqueKeys) : Stable hide base overlays := by
  induction hkeyed generalizing base with
  | @intro overlays keyed items below ih =>
    obtain ⟨hdistinct, hbelow⟩ := hbase
    refine stable_of_laid hdistinct keyed hunique fun o ho => ?_
    have ho' := hunique o ho
    cases hfound : nodeAt? base o.nodeKey with
    | none =>
      obtain ⟨hgroups, -, -⟩ := below o ho
      exact .self (Json.isObject_of_nodeKey (keyed.1 o ho)) ho' (items o ho) hgroups <|
        ih o ho (fun _ => ho'.of_mem_nodes) .nil (by simp)
    | some n =>
      have hn := mem_of_nodeAt? hfound
      exact .mergeGroup (hbaseUnique n hn) ho' (nodeKey_of_nodeAt? hfound) (items o ho) <|
        ih o ho (fun _ => ho'.of_mem_nodes) (hbelow n hn) fun _ => (hbaseUnique n hn).of_mem_nodes

end Groups

/-! ## Documents -/

section Documents

variable {document overlay : Json} {hide : HideList}

theorem hideNodes_hideNodes (hide : HideList) (hobject : document.isObject) :
    hideNodes hide (hideNodes hide document) = hideNodes hide document := by
  by_cases hempty : hide.isEmpty
  · simp [hideNodes, hempty]
  · have hget : (hideNodes hide document).get? "groups" = _ := get?_hideNodes hobject "groups"
    rw [if_pos ⟨rfl, hempty⟩] at hget
    have hnodes : (hideNodes hide document).nodes "groups" = _ := nodes_hideNodes hobject
    rw [if_neg hempty] at hnodes
    rw [hideNodes, if_neg hempty, hnodes, filterGroups_filterGroups, Json.set_of_get? hget]

theorem nodes_applyOverlay_twice (hdocument : document.UniqueKeys) (hobject : document.isObject)
    (hoverlay : overlay.UniqueKeys) (hdistinct : DistinctGroups (document.nodes "groups"))
    (hkeyed : KeyedGroups (overlay.nodes "groups")) :
    (applyOverlay (applyOverlay document (some overlay) hide) (some overlay) hide).nodes "groups" =
      (applyOverlay document (some overlay) hide).nodes "groups" := by
  have hkeys := hdocument.nodup_keys
  have hobject' : (applyOverlay document (some overlay) hide).isObject :=
    (isObject_applyOverlay ..).trans hobject
  have hstable := hkeyed.stable (hide ++ hiddenBy overlay) (fun _ => hoverlay.of_mem_nodes)
    hdistinct fun _ => hdocument.of_mem_nodes
  rw [nodes_applyOverlay hobject' (nodup_keys_applyOverlay hkeys), nodes_applyOverlay hobject hkeys]
  split
  · exact hstable.merged
  · exact hstable.filtered

theorem get?_applyOverlay_twice (hdocument : document.UniqueKeys) (hobject : document.isObject)
    (hoverlay : overlay.UniqueKeys) (hdistinct : DistinctGroups (document.nodes "groups"))
    (hkeyed : KeyedGroups (overlay.nodes "groups")) (k : String) :
    (applyOverlay (applyOverlay document (some overlay) hide) (some overlay) hide).get? k =
      (applyOverlay document (some overlay) hide).get? k := by
  have hkeys := hdocument.nodup_keys
  have hkeys' : (applyOverlay document (some overlay) hide).keys.Nodup :=
    nodup_keys_applyOverlay hkeys
  have hobject' : (applyOverlay document (some overlay) hide).isObject :=
    (isObject_applyOverlay ..).trans hobject
  by_cases hk : k = "groups"
  · subst hk
    rw [get?_applyOverlay_groups hobject' hkeys',
      nodes_applyOverlay_twice hdocument hobject hoverlay hdistinct hkeyed]
    split
    · rfl
    · rename_i hchanged
      rw [get?_applyOverlay_groups hobject hkeys, if_neg hchanged]
  · rw [get?_applyOverlay hobject' hkeys' hk, get?_applyOverlay hobject hkeys hk]
    cases overlay.first? closingKeys with
    | none => rfl
    | some closing =>
      simp only [Option.elim_some]
      split
      · rfl
      · split <;> rfl

/-- The same overlay and hide list leave their result as it is. Only the order of the entries of the
document itself may change. Documents that are read have unique keys. -/
theorem applyOverlay_twice {overlay : Option Json} (hide : HideList)
    (hdocument : document.UniqueKeys) (hoverlay : ∀ o ∈ overlay, o.UniqueKeys)
    (hdistinct : DistinctGroups (document.nodes "groups"))
    (hkeyed : ∀ o ∈ overlay, KeyedGroups (o.nodes "groups")) :
    (applyOverlay (applyOverlay document overlay hide) overlay hide).SameEntries
      (applyOverlay document overlay hide) := by
  by_cases hobject : document.isObject
  · cases overlay with
    | none =>
      have hhide (d : Json) : applyOverlay d none hide = hideNodes hide d :=
        applyOverlay_eq d none hide
      rw [hhide, hhide, hideNodes_hideNodes hide hobject]
      exact .refl _
    | some o =>
      have hobject' : (applyOverlay document (some o) hide).isObject :=
        (isObject_applyOverlay ..).trans hobject
      have hkeys' : (applyOverlay document (some o) hide).keys.Nodup :=
        nodup_keys_applyOverlay hdocument.nodup_keys
      refine Json.sameEntries_of_get? ((isObject_applyOverlay ..).trans hobject') hobject'
        (nodup_keys_applyOverlay hkeys') hkeys' fun k => ?_
      exact get?_applyOverlay_twice hdocument hobject (hoverlay o rfl) hdistinct (hkeyed o rfl) k
  · have hself : applyOverlay document overlay hide = document := by
      unfold applyOverlay
      rw [if_neg hobject]
    rw [hself, hself]
    exact .refl document

end Documents

theorem applyOverlay_twice_of_emptied_group :
    let document : Json := .obj [("name", .str "board"), ("suffix", .null), ("groups", .arr [
      .obj [("code", .str "pcie"), ("items", .arr [.obj [("code", .str "GEN")]]),
        ("groups", .arr [
          .obj [("name", .str "lane"), ("items", .arr [.obj [("code", .str "SWAP")]])]])],
      .obj [("code", .str ""), ("items", .arr [.int 0])]])]
    let overlay : Json := .obj [("groups", .arr [
      .obj [("code", .str "pcie"), ("groups", .arr [
        .obj [("code", .str "lane"), ("items", .arr [
          .obj [("code", .str "SWAP"), ("default", .int 1)]])],
        .obj [("code", .str "aspm"), ("items", .arr [.obj [("code", .str "L1")]])]])],
      .obj [("code", .str "usb"), ("items", .arr [.obj [("code", .str "PORT")]])]]),
      ("ccSuffix", .int 7), ("hide_items", .arr [.str "SWAP", .str "GEN"])]
    let hide : HideList := ⟨["usb"], []⟩
    let result : Json := .obj [("name", .str "board"), ("groups", .arr [
      .obj [("code", .str "pcie"), ("items", .arr []), ("groups", .arr [
        .obj [("code", .str "aspm"), ("items", .arr [.obj [("code", .str "L1")]])]])],
      .obj [("code", .str ""), ("items", .arr [.int 0])]]), ("cc_suffix", .int 7)]
    document.UniqueKeys ∧ (∀ o ∈ some overlay, o.UniqueKeys) ∧
      DistinctGroups (document.nodes "groups") ∧
      (∀ o ∈ some overlay, KeyedGroups (o.nodes "groups")) ∧
      applyOverlay document (some overlay) hide = result ∧
      (applyOverlay result (some overlay) hide).SameEntries result := by
  intro document overlay hide result
  have hdocument : document.UniqueKeys := by simp [document, Json.UniqueKeys, Entries.keys]
  have hoverlay : ∀ o ∈ some overlay, o.UniqueKeys := by
    simp [overlay, Json.UniqueKeys, Entries.keys]
  have hdistinct : DistinctGroups (document.nodes "groups") :=
    .intro (by decide) <| List.forall_mem_cons.2
      ⟨.intro (by decide) (List.forall_mem_singleton.2 .nil), List.forall_mem_singleton.2 .nil⟩
  have hkeyed : KeyedGroups (overlay.nodes "groups") :=
    .intro (by decide) (by decide) <| List.forall_mem_cons.2
      ⟨.intro (by decide) (by decide) <|
        List.forall_mem_cons.2 ⟨.nil, List.forall_mem_singleton.2 .nil⟩,
        List.forall_mem_singleton.2 .nil⟩
  have honce : applyOverlay document (some overlay) hide = result := by
    cbv
  have hkeyed' : ∀ o ∈ some overlay, KeyedGroups (o.nodes "groups") := by simpa using hkeyed
  refine ⟨hdocument, hoverlay, hdistinct, hkeyed', honce, ?_⟩
  have htwice := applyOverlay_twice hide hdocument hoverlay hdistinct hkeyed'
  rwa [honce] at htwice

end RegisterImage
