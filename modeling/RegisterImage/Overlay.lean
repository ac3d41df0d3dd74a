import RegisterImage.Json.Basic

/-!
# Overlays

A board overlay changes a register document. Groups and items are matched by their key, which
is their code or else their name. Matched groups are merged all the way down, matched items
field by field, and what matches nothing is added at the end. Then hidden groups and items are
taken out, and groups left without content with them.

## Main definitions

* `Json.nodeKey` — the key of a group or an item.
* `mergeGroup` — a group with an overlay group on it.
* `filterGroups` — groups without what is hidden.
* `applyOverlay` — a document with an overlay on it and without what is hidden.
-/

namespace RegisterImage

/-- The keys of the groups and items to take out. -/
structure HideList where
  groups : List String
  items : List String
  deriving DecidableEq, Repr

def HideList.isEmpty (hide : HideList) : Bool :=
  hide.groups.isEmpty && hide.items.isEmpty

instance : Append HideList where
  append a b := ⟨a.groups ++ b.groups, a.items ++ b.items⟩

/-- The code of a node, or its name when the code is empty or missing. -/
def Json.nodeKey (node : Json) : String :=
  let code? := ((node.get? "code").bind Json.string?).filter (· ≠ "")
  (code? <|> (node.get? "name").bind Json.string?).getD ""

/-! ## Merging -/

/-- The fields of `overlay` replace those of `base`. -/
def shallowMerge (base overlay : Json) : Json :=
  .obj ((overlay.entries?.getD []).foldl (fun es e => Entries.insert e.1 e.2 es)
    (base.entries?.getD []))

/-- The first node with the key of an overlay node is merged with it. An overlay node without a
key, or with a new one, is added. -/
def placeNode (merge : Json → Json) (nodes : List Json) (overlay : Json) : List Json :=
  if overlay.nodeKey = "" then nodes ++ [overlay]
  else match nodes.findIdx? (·.nodeKey = overlay.nodeKey) with
    | some i => nodes.modify i merge
    | none => nodes ++ [overlay]

def mergeItems (base overlays : List Json) : List Json :=
  overlays.foldl (fun nodes o => placeNode (shallowMerge · o) nodes o) base

/-- An array under a key, when either of two nodes has one. -/
def setIfArray (key : String) (base overlay : Json) (merged : List Json) (node : Json) : Json :=
  if (base.array? key).isSome || (overlay.array? key).isSome then node.set key (.arr merged)
  else node

def mergeGroup (base overlay : Json) : Json :=
  let items := mergeItems (base.nodes "items") (overlay.nodes "items")
  let groups := (overlay.nodes "groups").attach.foldl
    (fun nodes o => placeNode (fun node => mergeGroup node o.1) nodes o.1)
    (base.nodes "groups")
  setIfArray "groups" base overlay groups
    (setIfArray "items" base overlay items (shallowMerge base overlay))
termination_by sizeOf overlay
decreasing_by exact Json.sizeOf_lt_of_mem_nodes o.2

def mergeGroups (base overlays : List Json) : List Json :=
  overlays.foldl (fun nodes o => placeNode (mergeGroup · o) nodes o) base

theorem mergeGroup_eq (base overlay : Json) :
    mergeGroup base overlay =
      setIfArray "groups" base overlay
        (mergeGroups (base.nodes "groups") (overlay.nodes "groups"))
        (setIfArray "items" base overlay
          (mergeItems (base.nodes "items") (overlay.nodes "items"))
          (shallowMerge base overlay)) := by
  rw [mergeGroup, mergeGroups]
  exact congrArg (setIfArray "groups" base overlay · _) <| List.foldl_attach
    (f := fun nodes o => placeNode (mergeGroup · o) nodes o)

/-! ## Hiding -/

def HideList.hidesGroup (hide : HideList) (group : Json) : Bool :=
  group.nodeKey ≠ "" && hide.groups.contains group.nodeKey

def HideList.hidesItem (hide : HideList) (item : Json) : Bool :=
  item.nodeKey ≠ "" && hide.items.contains item.nodeKey

/-- A group without what is hidden; none when it is hidden itself or nothing is left in it. -/
def filterGroup? (hide : HideList) (group : Json) : Option Json :=
  if hide.hidesGroup group then none
  else
    let items := (group.nodes "items").filter (!hide.hidesItem ·)
    let groups := (group.nodes "groups").attach.filterMap fun g => filterGroup? hide g.1
    if items.isEmpty && groups.isEmpty then none
    else some (setIfArray "groups" group group groups (setIfArray "items" group group items group))
termination_by sizeOf group
decreasing_by exact Json.sizeOf_lt_of_mem_nodes g.2

def filterGroups (hide : HideList) (groups : List Json) : List Json :=
  groups.filterMap (filterGroup? hide)

theorem filterGroup?_eq (hide : HideList) (group : Json) :
    filterGroup? hide group =
      if hide.hidesGroup group then none
      else
        let items := (group.nodes "items").filter (!hide.hidesItem ·)
        let groups := filterGroups hide (group.nodes "groups")
        if items.isEmpty && groups.isEmpty then none
        else
          some (setIfArray "groups" group group groups
            (setIfArray "items" group group items group)) := by
  rw [filterGroup?]
  have : (group.nodes "groups").attach.filterMap (fun g => filterGroup? hide g.1) =
      filterGroups hide (group.nodes "groups") := by
    change List.filterMap (filterGroup? hide ∘ Subtype.val) _ = _
    rw [← List.filterMap_map, List.attach_map_subtype_val, filterGroups]
  simp only [this]

/-! ## Documents -/

/-- The names of a closing write in a document. -/
def closingKeys : List String :=
  ["cc_suffix", "ccSuffix", "suffix"]

/-- The closing write of the overlay takes the place of that of the document, whatever name it
goes by there. -/
def replaceClosing (overlay : Json) (document : Json) : Json :=
  match overlay.first? closingKeys, document with
  | some closing, .obj es =>
    .obj (Entries.insert "cc_suffix" closing (closingKeys.foldl Entries.remove es))
  | _, document => document

/-- The groups of the overlay are merged into those of the document. -/
def overlayGroups (overlay : Json) (document : Json) : Json :=
  match overlay.array? "groups" with
  | some overlays => document.set "groups" (.arr (mergeGroups (document.nodes "groups") overlays))
  | none => document

def Json.strings (j : Json) (key : String) : List String :=
  (j.nodes key).filterMap Json.string?

/-- What an overlay itself hides. -/
def hiddenBy (overlay : Json) : HideList :=
  ⟨overlay.strings "hide_groups", overlay.strings "hide_items"⟩

def hideNodes (hide : HideList) (document : Json) : Json :=
  if hide.isEmpty then document
  else document.set "groups" (.arr (filterGroups hide (document.nodes "groups")))

/-- A document with an overlay on it and without what the caller or the overlay hides. A
document that is no object stays as it is. -/
def applyOverlay (document : Json) (overlay : Option Json) (hide : HideList) : Json :=
  if document.isObject then
    match overlay with
    | none => hideNodes hide document
    | some o => hideNodes (hide ++ hiddenBy o) (replaceClosing o (overlayGroups o document))
  else document

end RegisterImage
