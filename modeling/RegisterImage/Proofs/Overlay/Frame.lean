import RegisterImage.Catalog
import RegisterImage.Proofs.Overlay.Documents

/-!
# What an overlay leaves alone

Overlay nodes are placed one after the other, and a later one may meet a node that an earlier one
has changed or added. As merging never changes a key, the outcome can be told for each node by
itself: a base node takes in the overlay nodes with its key, unless it has none or is not the first
with it, and the first overlay node of a new key takes in the later ones.

## Main definitions

* `namesakes`, `arrivals` — the overlay nodes for a node, and those that are added.
* `mergeNodes_eq_overlayEach` — merged nodes, each by itself.
* `Overlaid` — nodes that overlay nodes were merged into, and what each has become.
* `GroupsOverlaid` — the same for groups, down to a depth.
* `applyOverlay_frame` — what an overlay changes in groups, items and documents.
-/

namespace RegisterImage

/-! ## Nodes by themselves -/

/-- The overlay nodes with the key of a node. A node without a key has none. -/
def namesakes (n : Json) (overlays : List Json) : List Json :=
  if n.nodeKey = "" then [] else overlays.filter (·.nodeKey = n.nodeKey)

/-- The overlay nodes without a key and the first of each key that is not known yet, with the later
ones of their key. -/
def arrivals (known : List String) : List Json → List (Json × List Json)
  | [] => []
  | o :: os =>
    if o.nodeKey ≠ "" ∧ o.nodeKey ∈ known then arrivals known os
    else (o, namesakes o os) :: arrivals (known ++ [o.nodeKey]) os

section Each

variable (merge : Json → Json → Json)

/-- A node after nodes with the keys `known`. Only the first with its key takes overlay nodes in. -/
def overlayNode (known : List String) (n : Json) (overlays : List Json) : Json :=
  if n.nodeKey ∈ known then n else (namesakes n overlays).foldl merge n

def overlayEach (known : List String) : List Json → List Json → List Json
  | [], overlays => (arrivals known overlays).map fun a => a.2.foldl merge a.1
  | n :: base, overlays =>
    overlayNode merge known n overlays :: overlayEach (known ++ [n.nodeKey]) base overlays

end Each

section Each

variable {merge : Json → Json → Json} {known : List String} {base overlays : List Json} {n o : Json}

theorem namesakes_cons_of_ne (h : o.nodeKey = "" ∨ n.nodeKey ≠ o.nodeKey) :
    namesakes n (o :: overlays) = namesakes n overlays := by
  unfold namesakes
  split
  · rfl
  · rename_i hn
    have hne : o.nodeKey ≠ n.nodeKey := by
      rcases h with h | h
      · exact fun heq => hn (heq ▸ h)
      · exact Ne.symm h
    rw [List.filter_cons_of_neg (by simpa using hne)]

theorem namesakes_cons_of_eq (ho : o.nodeKey ≠ "") (h : n.nodeKey = o.nodeKey) :
    namesakes n (o :: overlays) = o :: namesakes n overlays := by
  simp [namesakes, h, ho]

theorem overlayNode_cons_of_ne (h : o.nodeKey = "" ∨ n.nodeKey ≠ o.nodeKey) :
    overlayNode merge known n (o :: overlays) = overlayNode merge known n overlays := by
  rw [overlayNode, overlayNode, namesakes_cons_of_ne h]

theorem overlayEach_nil : overlayEach merge known base [] = base := by
  induction base generalizing known with
  | nil => rfl
  | cons n base ih => simp [overlayEach, overlayNode, namesakes, ih]

/-- An overlay node with a known key does not get past the node that has it. -/
theorem overlayEach_cons_of_known (ho : o.nodeKey ≠ "") (hknown : o.nodeKey ∈ known) :
    overlayEach merge known base (o :: overlays) = overlayEach merge known base overlays := by
  induction base generalizing known with
  | nil => rw [overlayEach, overlayEach, arrivals, if_pos ⟨ho, hknown⟩]
  | cons n base ih =>
    have hnode : overlayNode merge known n (o :: overlays) =
        overlayNode merge known n overlays := by
      by_cases hn : n.nodeKey = o.nodeKey
      · rw [overlayNode, overlayNode, if_pos (hn ▸ hknown), if_pos (hn ▸ hknown)]
      · exact overlayNode_cons_of_ne (.inr hn)
    rw [overlayEach, overlayEach, hnode, ih (List.mem_append_left _ hknown)]

theorem overlayEach_append_of_new
    (ho : o.nodeKey = "" ∨ o.nodeKey ∉ known ∧ ∀ n ∈ base, n.nodeKey ≠ o.nodeKey) :
    overlayEach merge known (base ++ [o]) overlays =
      overlayEach merge known base (o :: overlays) := by
  induction base generalizing known with
  | nil =>
    have harrives : ¬(o.nodeKey ≠ "" ∧ o.nodeKey ∈ known) := by tauto
    have hnode : overlayNode merge known o overlays = (namesakes o overlays).foldl merge o := by
      unfold overlayNode
      split
      · have hempty : o.nodeKey = "" := by tauto
        rw [namesakes, if_pos hempty, List.foldl_nil]
      · rfl
    rw [List.nil_append, overlayEach, overlayEach, overlayEach, arrivals, if_neg harrives, hnode,
      List.map_cons]
  | cons n base ih =>
    have hother : o.nodeKey = "" ∨ n.nodeKey ≠ o.nodeKey :=
      ho.imp_right fun h => h.2 n List.mem_cons_self
    have hrest : o.nodeKey = "" ∨ o.nodeKey ∉ known ++ [n.nodeKey] ∧
        ∀ n ∈ base, n.nodeKey ≠ o.nodeKey := by
      refine ho.imp_right fun ⟨hknown, hbase⟩ => ?_
      obtain ⟨hn, hbase⟩ := List.forall_mem_cons.1 hbase
      exact ⟨by simp [hknown, hn.symm], hbase⟩
    rw [List.cons_append, overlayEach, overlayEach, overlayNode_cons_of_ne hother, ih hrest]

theorem overlayEach_of_first {before after : List Json} (ho : o.nodeKey ≠ "")
    (hknown : o.nodeKey ∉ known) (hbefore : ∀ b ∈ before, b.nodeKey ≠ o.nodeKey)
    (hn : n.nodeKey = o.nodeKey) (hmerge : (merge n o).nodeKey = o.nodeKey) :
    overlayEach merge known (before ++ merge n o :: after) overlays =
      overlayEach merge known (before ++ n :: after) (o :: overlays) := by
  induction before generalizing known with
  | nil =>
    have hnode : overlayNode merge known (merge n o) overlays =
        overlayNode merge known n (o :: overlays) := by
      rw [overlayNode, overlayNode, hmerge, hn, if_neg hknown, if_neg hknown,
        namesakes_cons_of_eq ho hn, List.foldl_cons, namesakes, namesakes, hmerge, hn]
    have hmem : o.nodeKey ∈ known ++ [o.nodeKey] := by simp
    rw [List.nil_append, List.nil_append, overlayEach, overlayEach, hnode, hmerge, hn,
      overlayEach_cons_of_known ho hmem]
  | cons b before ih =>
    obtain ⟨hb, hbefore⟩ := List.forall_mem_cons.1 hbefore
    have hknown' : o.nodeKey ∉ known ++ [b.nodeKey] := by simp [hknown, hb.symm]
    rw [List.cons_append, List.cons_append, overlayEach, overlayEach,
      overlayNode_cons_of_ne (.inr hb), ih hknown' hbefore]

/-- By induction on the overlay nodes: placing one leaves each node what it is by itself. -/
theorem mergeNodes_eq_overlayEach (hmerge : KeepsKeys merge overlays) :
    mergeNodes merge base overlays = overlayEach merge [] base overlays := by
  induction overlays generalizing base with
  | nil => exact overlayEach_nil.symm
  | cons o os ih =>
    obtain ⟨ho, hos⟩ := List.forall_mem_cons.1 hmerge
    change mergeNodes merge (placeNode (merge · o) base o) os = _
    rw [ih hos]
    by_cases hempty : o.nodeKey = ""
    · rw [placeNode, if_pos hempty, overlayEach_append_of_new (.inl hempty)]
    · rcases placeNode_cases (merge · o) base hempty with ⟨hnone, hplace⟩ |
        ⟨before, n, after, rfl, hn, hbefore, hplace⟩
      · have hnew : o.nodeKey ∉ [] ∧ ∀ n ∈ base, n.nodeKey ≠ o.nodeKey :=
          ⟨List.not_mem_nil, nodeAt?_eq_none_iff.1 hnone⟩
        rw [hplace, overlayEach_append_of_new (.inr hnew)]
      · rw [hplace, overlayEach_of_first hempty List.not_mem_nil (nodeAt?_eq_none_iff.1 hbefore) hn
          (ho n hn)]

theorem getElem?_overlayEach {i : Nat} (h : base[i]? = some n) :
    (overlayEach merge known base overlays)[i]? =
      some (overlayNode merge (known ++ (base.take i).map Json.nodeKey) n overlays) := by
  induction base generalizing known i with
  | nil => cases h
  | cons b base ih =>
    cases i with
    | zero =>
      obtain rfl := Option.some.inj h
      simp [overlayEach]
    | succ i =>
      rw [List.getElem?_cons_succ] at h
      rw [overlayEach, List.getElem?_cons_succ, ih h, List.take_succ_cons, List.map_cons,
        List.append_assoc, List.singleton_append]

theorem drop_overlayEach : (overlayEach merge known base overlays).drop base.length =
    (arrivals (known ++ base.map Json.nodeKey) overlays).map fun a => a.2.foldl merge a.1 := by
  induction base generalizing known with
  | nil => simp [overlayEach]
  | cons n base ih => simp [overlayEach, ih]

theorem length_le_overlayEach : base.length ≤ (overlayEach merge known base overlays).length := by
  induction base generalizing known with
  | nil => exact Nat.zero_le _
  | cons n base ih => simpa [overlayEach] using ih

theorem mem_namesakes (h : o ∈ namesakes n overlays) : o ∈ overlays ∧ o.nodeKey = n.nodeKey := by
  unfold namesakes at h
  split at h
  · cases h
  · simpa using h

theorem mem_arrivals {a : Json × List Json} (h : a ∈ arrivals known overlays) :
    a.1 ∈ overlays ∧ ∀ o ∈ a.2, o ∈ overlays ∧ o.nodeKey = a.1.nodeKey := by
  induction overlays generalizing known with
  | nil => cases h
  | cons o os ih =>
    have hmore {known : List String} (h : a ∈ arrivals known os) :
        a.1 ∈ o :: os ∧ ∀ o' ∈ a.2, o' ∈ o :: os ∧ o'.nodeKey = a.1.nodeKey := by
      obtain ⟨hfirst, hlater⟩ := ih h
      exact ⟨List.mem_cons_of_mem _ hfirst,
        fun o' ho' => (hlater o' ho').imp_left (List.mem_cons_of_mem _)⟩
    unfold arrivals at h
    split at h
    · exact hmore h
    · rcases List.mem_cons.1 h with rfl | h
      · exact ⟨List.mem_cons_self,
          fun o' ho' => (mem_namesakes ho').imp_left (List.mem_cons_of_mem _)⟩
      · exact hmore h

theorem KeepsKeys.nodeKey_foldl (hmerge : KeepsKeys merge overlays) {os : List Json}
    (h : ∀ o ∈ os, o ∈ overlays ∧ o.nodeKey = n.nodeKey) :
    (os.foldl merge n).nodeKey = n.nodeKey := by
  induction os generalizing n with
  | nil => rfl
  | cons o os ih =>
    obtain ⟨⟨ho, hkey⟩, hos⟩ := List.forall_mem_cons.1 h
    have hn : (merge n o).nodeKey = n.nodeKey := (hmerge o ho n hkey.symm).trans hkey
    rw [List.foldl_cons, ih (hn ▸ hos), hn]

end Each

/-! ## Lists of nodes with overlay nodes on them -/

/-- A list of nodes that overlay nodes were merged into: every base node keeps its place and its
key, and changes only if it is the first with the key of an overlay node, and the rest has been
added. What becomes of a node that takes overlay nodes in is told by `into`. -/
structure Overlaid (into : Json → List Json → Json → Prop) (base overlays result : List Json) :
    Prop where
  length_le : base.length ≤ result.length
  node : ∀ i n, base[i]? = some n → ∃ m, result[i]? = some m ∧ m.nodeKey = n.nodeKey ∧
    (n.nodeKey = "" ∨ (∀ o ∈ overlays, o.nodeKey ≠ n.nodeKey) ∨
      n.nodeKey ∈ (base.take i).map Json.nodeKey → m = n) ∧
    (n.nodeKey ∉ (base.take i).map Json.nodeKey → into n (namesakes n overlays) m)
  added : List.Forall₂ (fun a m => m.nodeKey = a.1.nodeKey ∧ into a.1 a.2 m)
    (arrivals (base.map Json.nodeKey) overlays) (result.drop base.length)

theorem overlaid_mergeNodes {merge : Json → Json → Json} {base overlays : List Json}
    {into : Json → List Json → Json → Prop} (hmerge : KeepsKeys merge overlays)
    (hinto : ∀ n os, (∀ o ∈ os, o ∈ overlays) → into n os (os.foldl merge n)) :
    Overlaid into base overlays (mergeNodes merge base overlays) := by
  rw [mergeNodes_eq_overlayEach hmerge]
  refine ⟨length_le_overlayEach, fun i n hn => ⟨_, getElem?_overlayEach hn, ?_⟩, ?_⟩
  · rw [List.nil_append]
    unfold overlayNode
    have hkey := hmerge.nodeKey_foldl fun o (ho : o ∈ namesakes n overlays) => mem_namesakes ho
    split
    · rename_i hknown
      exact ⟨rfl, fun _ => rfl, fun hnew => absurd hknown hnew⟩
    · rename_i hnew
      refine ⟨hkey, fun h => ?_, fun _ => hinto n _ fun o ho => (mem_namesakes ho).1⟩
      have hnone : namesakes n overlays = [] := by
        rw [namesakes]
        split
        · rfl
        · rw [List.filter_eq_nil_iff]
          intro o ho
          simpa using (h.resolve_left ‹_›).resolve_right hnew o ho
      rw [hnone, List.foldl_nil]
  · rw [drop_overlayEach, List.nil_append, List.forall₂_map_right_iff, List.forall₂_same]
    intro a ha
    obtain ⟨-, hlater⟩ := mem_arrivals ha
    exact ⟨hmerge.nodeKey_foldl hlater, hinto _ _ fun o ho => (hlater o ho).1⟩

/-! ## Items and groups -/

/-- The value of a field in the last of some overlay nodes that has it, or else in the node. -/
def lastField? (n : Json) (os : List Json) (k : String) : Option Json :=
  (os.reverse.findSome? (·.get? k)).or (n.get? k)

theorem lastField?_cons (n o : Json) (os : List Json) (k : String) :
    lastField? n (o :: os) k = (os.reverse.findSome? (·.get? k)).or ((o.get? k).or (n.get? k)) := by
  simp [lastField?, List.findSome?_append, Option.or_assoc]

theorem get?_foldl_shallowMerge {os : List Json} (h : ∀ o ∈ os, o.UniqueKeys) (n : Json)
    (k : String) : (os.foldl shallowMerge n).get? k = lastField? n os k := by
  induction os generalizing n with
  | nil => rfl
  | cons o os ih =>
    obtain ⟨ho, hos⟩ := List.forall_mem_cons.1 h
    rw [List.foldl_cons, ih hos, lastField?_cons, lastField?, get?_shallowMerge ho.nodup_keys]

theorem get?_foldl_mergeGroup {os : List Json} (h : ∀ o ∈ os, o.UniqueKeys) (n : Json) {k : String}
    (hitems : k ≠ "items") (hgroups : k ≠ "groups") :
    (os.foldl mergeGroup n).get? k = lastField? n os k := by
  induction os generalizing n with
  | nil => rfl
  | cons o os ih =>
    obtain ⟨ho, hos⟩ := List.forall_mem_cons.1 h
    rw [List.foldl_cons, ih hos, lastField?_cons, lastField?, get?_mergeGroup ho.nodup_keys,
      if_neg (hgroups ·.1), if_neg (hitems ·.1)]

/-- Several overlay groups on one group merge their items and groups one after the other. -/
theorem nodes_foldl_mergeGroup {os : List Json} (h : ∀ o ∈ os, o.UniqueKeys) (n : Json) :
    (os.foldl mergeGroup n).nodes "items" =
        mergeItems (n.nodes "items") (os.flatMap (·.nodes "items")) ∧
      (os.foldl mergeGroup n).nodes "groups" =
        mergeGroups (n.nodes "groups") (os.flatMap (·.nodes "groups")) := by
  induction os generalizing n with
  | nil => exact ⟨rfl, rfl⟩
  | cons o os ih =>
    obtain ⟨ho, hos⟩ := List.forall_mem_cons.1 h
    obtain ⟨hitems, hgroups⟩ := ih hos (mergeGroup n o)
    rw [List.foldl_cons, hitems, hgroups, nodes_mergeGroup_items ho.nodup_keys,
      nodes_mergeGroup_groups ho.nodup_keys]
    simp only [mergeItems, mergeGroups, List.flatMap_cons, List.foldl_append, and_self]

theorem overlaid_mergeItems {base overlays : List Json} (h : ∀ o ∈ overlays, o.UniqueKeys) :
    Overlaid (fun n os m => ∀ k, m.get? k = lastField? n os k) base overlays
      (mergeItems base overlays) :=
  overlaid_mergeNodes (keepsKeys_shallowMerge h) fun n _ hos k =>
    get?_foldl_shallowMerge (fun o ho => h o (hos o ho)) n k

/-- Groups that overlay groups were merged into, with their items and with their groups down to a
depth. -/
def GroupsOverlaid : Nat → List Json → List Json → List Json → Prop
  | 0 => fun _ _ _ => True
  | depth + 1 => Overlaid fun n os m =>
    (∀ k, k ≠ "items" → k ≠ "groups" → m.get? k = lastField? n os k) ∧
    Overlaid (fun n os m => ∀ k, m.get? k = lastField? n os k)
      (n.nodes "items") (os.flatMap (·.nodes "items")) (m.nodes "items") ∧
    GroupsOverlaid depth (n.nodes "groups") (os.flatMap (·.nodes "groups")) (m.nodes "groups")

theorem groupsOverlaid_mergeGroups (depth : Nat) {base overlays : List Json}
    (h : ∀ o ∈ overlays, o.UniqueKeys) :
    GroupsOverlaid depth base overlays (mergeGroups base overlays) := by
  induction depth generalizing base overlays with
  | zero => trivial
  | succ depth ih =>
    refine overlaid_mergeNodes (keepsKeys_mergeGroup h) fun n os hos => ?_
    have hunique : ∀ o ∈ os, o.UniqueKeys := fun o ho => h o (hos o ho)
    have hbelow (key : String) : ∀ x ∈ os.flatMap (·.nodes key), x.UniqueKeys := by
      intro x hx
      obtain ⟨o, ho, hx⟩ := List.mem_flatMap.1 hx
      exact (hunique o ho).of_mem_nodes hx
    obtain ⟨hitems, hgroups⟩ := nodes_foldl_mergeGroup hunique n
    rw [hitems, hgroups]
    exact ⟨fun k => get?_foldl_mergeGroup hunique n, overlaid_mergeItems (hbelow "items"),
      ih (hbelow "groups")⟩

/-! ## Documents -/

section Document

variable {document : Json} {hide : HideList}

theorem get?_applyOverlay_of_ne (hkeys : document.keys.Nodup) (overlay : Option Json) {k : String}
    (hgroups : k ≠ "groups") (hclosing : k ∉ closingKeys) :
    (applyOverlay document overlay hide).get? k = document.get? k := by
  by_cases hobject : document.isObject
  · cases overlay with
    | none =>
      rw [applyOverlay, if_pos hobject, get?_hideNodes hobject, if_neg (hgroups ·.1)]
    | some o =>
      have hname : k ≠ "cc_suffix" := fun h => hclosing (h ▸ List.mem_cons_self)
      rw [get?_applyOverlay hobject hkeys hgroups]
      simp only [if_neg hname, if_neg hclosing]
      cases o.first? closingKeys <;> rfl
  · simp only [applyOverlay, if_neg hobject]

/-- The closing write of an overlay is the one that is loaded, as the other names for it in the
document are gone. -/
theorem closing_applyOverlay (hobject : document.isObject) (hkeys : document.keys.Nodup)
    {overlay closing : Json} (h : overlay.first? closingKeys = some closing) :
    ∃ c, Catalog.ofDocument (applyOverlay document (some overlay) hide) = .ok c ∧
      c.closing = DeviceWrite.ofJson? closing := by
  have hobject' : (applyOverlay document (some overlay) hide).isObject :=
    (isObject_applyOverlay ..).trans hobject
  have hfield : (applyOverlay document (some overlay) hide).get? "cc_suffix" = some closing := by
    rw [get?_applyOverlay hobject hkeys (by decide), h]
    rfl
  refine ⟨_, if_pos hobject', ?_⟩
  simp only [Json.first?, List.findSome?_cons, hfield, Option.bind_some]

end Document

/-- What an overlay does to items, to groups at every depth and to a document. All else stays. -/
theorem applyOverlay_frame :
    (∀ base overlays : List Json, (∀ o ∈ overlays, o.UniqueKeys) →
      Overlaid (fun n os m => ∀ k, m.get? k = lastField? n os k) base overlays
        (mergeItems base overlays) ∧
      ∀ depth, GroupsOverlaid depth base overlays (mergeGroups base overlays)) ∧
    ∀ (document : Json) (overlay : Option Json) (hide : HideList), document.UniqueKeys →
      (∀ k, k ≠ "groups" → k ∉ closingKeys →
        (applyOverlay document overlay hide).get? k = document.get? k) ∧
      ∀ o ∈ overlay, document.isObject →
        ((hide ++ hiddenBy o).isEmpty → (applyOverlay document overlay hide).nodes "groups" =
          mergeGroups (document.nodes "groups") (o.nodes "groups")) ∧
        ∀ closing, o.first? closingKeys = some closing →
          ∃ c, Catalog.ofDocument (applyOverlay document overlay hide) = .ok c ∧
            c.closing = DeviceWrite.ofJson? closing := by
  refine ⟨fun base overlays h =>
    ⟨overlaid_mergeItems h, fun depth => groupsOverlaid_mergeGroups depth h⟩, ?_⟩
  intro document overlay hide hunique
  have hkeys := hunique.nodup_keys
  refine ⟨fun k hgroups hclosing => get?_applyOverlay_of_ne hkeys overlay hgroups hclosing, ?_⟩
  rintro o rfl hobject
  refine ⟨fun hempty => ?_, fun closing hclosing => closing_applyOverlay hobject hkeys hclosing⟩
  rw [nodes_applyOverlay hobject hkeys, if_pos hempty]

/-- A key that is there twice, items without a key, and a key that comes from a name once the code
is gone. The overlay brings a closing write under another name than the document has. -/
theorem applyOverlay_frame_of_shared_keys :
    let base : List Json := [.obj [("code", .str "PHY"), ("value", .int 1)],
      .obj [("value", .int 2)], .obj [("code", .str "PHY"), ("value", .int 3)]]
    let overlays : List Json := [.obj [("name", .str "LED"), ("value", .int 4)],
      .obj [("name", .str "PHY"), ("code", .str ""), ("value", .int 5)],
      .obj [("code", .str "LED"), ("value", .int 6)]]
    let closing : Json := .obj [("address", .str "0x1F000"), ("size", .int 1), ("value", .str "1")]
    let document : Json := .obj [("title", .str "T"), ("suffix", .null),
      ("groups", .arr [.obj [("name", .str "G"), ("items", .arr base)]])]
    let overlay : Json := .obj [("ccSuffix", closing),
      ("groups", .arr [.obj [("name", .str "G"), ("items", .arr overlays)]])]
    (∀ o ∈ overlays, o.UniqueKeys) ∧ document.UniqueKeys ∧
    (∃ m, (mergeItems base overlays)[0]? = some m ∧ m.nodeKey = "PHY" ∧
      m.get? "value" = some (.int 5)) ∧
    (mergeItems base overlays)[1]? = base[1]? ∧ (mergeItems base overlays)[2]? = base[2]? ∧
    (∃ m, (mergeItems base overlays).drop 3 = [m] ∧ m.nodeKey = "LED" ∧
      m.get? "value" = some (.int 6)) ∧
    ∃ c, Catalog.ofDocument (applyOverlay document (some overlay) ⟨[], []⟩) = .ok c ∧
      c.closing = some ⟨1, 0xF000, 1, 1⟩ := by
  intro base overlays closing document overlay
  have hoverlays : ∀ o ∈ overlays, o.UniqueKeys := by
    simp [overlays, Json.UniqueKeys, Entries.keys]
  have hunique : document.UniqueKeys := by
    simp [document, base, Json.UniqueKeys, Entries.keys]
  obtain ⟨hnodes, hdocument⟩ := applyOverlay_frame
  obtain ⟨hitems, -⟩ := hnodes base overlays hoverlays
  obtain ⟨m₀, hm₀, hkey₀, -, hfield⟩ := hitems.node 0 _ rfl
  obtain ⟨m₁, hm₁, -, hsame₁, -⟩ := hitems.node 1 _ rfl
  obtain ⟨m₂, hm₂, -, hsame₂, -⟩ := hitems.node 2 _ rfl
  have harrivals : arrivals (base.map Json.nodeKey) overlays =
      [(overlays[0], [overlays[2]])] := rfl
  have hadded := hitems.added
  rw [harrivals, List.forall₂_cons_left_iff] at hadded
  obtain ⟨m, rest, ⟨hkey, hvalue⟩, hrest, hdrop⟩ := hadded
  obtain rfl := List.forall₂_nil_left_iff.1 hrest
  refine ⟨hoverlays, hunique, ⟨m₀, hm₀, hkey₀, hfield (by decide) "value"⟩, ?_, ?_,
    ⟨m, hdrop, hkey, hvalue "value"⟩, ?_⟩
  · rw [hm₁, hsame₁ (.inl rfl)]
    rfl
  · rw [hm₂, hsame₂ (.inr (.inr (by decide)))]
    rfl
  · obtain ⟨-, hoverlay⟩ := hdocument document (some overlay) ⟨[], []⟩ hunique
    obtain ⟨-, hclosing⟩ := hoverlay overlay rfl rfl
    obtain ⟨c, hc, hread⟩ := hclosing closing rfl
    have hwrite : DeviceWrite.ofJson? closing = some ⟨1, 0xF000, 1, 1⟩ := by decide +kernel
    exact ⟨c, hc, hread.trans hwrite⟩

end RegisterImage
