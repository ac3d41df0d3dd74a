import Mathlib
import RegisterImage.Proofs.Overlay.Merge

/-!
# Documents under an overlay

An overlay is laid on a document first and what is hidden is taken out then. The first changes the
groups and the closing write of the document and the second the groups alone.

## Main definitions

* `mergeOverlay` — a document with an overlay on it, before anything is hidden.
* `allHidden` — what the caller and the overlay hide.
* `applyOverlay_eq` — the two passes one after the other.
-/

namespace RegisterImage

/-- A document with an overlay on it, before anything is hidden. -/
def mergeOverlay (document : Json) (overlay : Option Json) : Json :=
  overlay.elim document fun o => replaceClosing o (overlayGroups o document)

/-- What the caller hides, and what the overlay does. -/
def allHidden (overlay : Option Json) (hide : HideList) : HideList :=
  overlay.elim hide fun o => hide ++ hiddenBy o

section

variable {document overlay : Json} {hide : HideList}

@[simp] theorem isObject_replaceClosing (overlay document : Json) :
    (replaceClosing overlay document).isObject = document.isObject := by
  unfold replaceClosing
  split <;> rfl

@[simp] theorem isObject_overlayGroups (overlay document : Json) :
    (overlayGroups overlay document).isObject = document.isObject := by
  unfold overlayGroups
  split
  · exact Json.isObject_set ..
  · rfl

@[simp] theorem isObject_hideNodes (hide : HideList) (document : Json) :
    (hideNodes hide document).isObject = document.isObject := by
  unfold hideNodes
  split
  · rfl
  · exact Json.isObject_set ..

@[simp] theorem isObject_mergeOverlay (document : Json) (overlay : Option Json) :
    (mergeOverlay document overlay).isObject = document.isObject := by
  cases overlay <;> simp [mergeOverlay]

theorem set_of_not_isObject {key : String} {value : Json} (h : ¬document.isObject) :
    document.set key value = document := by
  cases document with
  | obj es => exact absurd rfl h
  | _ => rfl

theorem replaceClosing_of_not_isObject (h : ¬document.isObject) :
    replaceClosing overlay document = document := by
  unfold replaceClosing
  split
  · exact absurd rfl h
  · rfl

/-- What is hidden is taken out of the document with the overlay on it. -/
theorem applyOverlay_eq (document : Json) (overlay : Option Json) (hide : HideList) :
    applyOverlay document overlay hide =
      hideNodes (allHidden overlay hide) (mergeOverlay document overlay) := by
  by_cases hobject : document.isObject
  · unfold applyOverlay
    rw [if_pos hobject]
    cases overlay <;> rfl
  · have hgroups (o : Json) : overlayGroups o document = document := by
      unfold overlayGroups
      split
      · exact set_of_not_isObject hobject
      · rfl
    have hmerged : mergeOverlay document overlay = document := by
      cases overlay with
      | none => rfl
      | some o => exact (congrArg _ (hgroups o)).trans (replaceClosing_of_not_isObject hobject)
    unfold applyOverlay
    rw [if_neg hobject, hmerged, hideNodes, set_of_not_isObject hobject, ite_self]

@[simp] theorem isObject_applyOverlay (document : Json) (overlay : Option Json)
    (hide : HideList) : (applyOverlay document overlay hide).isObject = document.isObject := by
  rw [applyOverlay_eq, isObject_hideNodes, isObject_mergeOverlay]

/-! ## Fields -/

theorem get?_overlayGroups (h : document.isObject) (k : String) :
    (overlayGroups overlay document).get? k =
      if k = "groups" then
        (overlay.array? "groups").elim (document.get? "groups") fun overlays =>
          some (.arr (mergeGroups (document.nodes "groups") overlays))
      else document.get? k := by
  unfold overlayGroups
  split
  · rename_i overlays harray
    rw [Json.get?_set h, harray, Option.elim_some]
  · rename_i harray
    rw [harray, Option.elim_none]
    split <;> simp [*]

theorem find?_foldl_remove {es : Entries} (hes : (Entries.keys es).Nodup) (keys : List String) :
    (Entries.keys (keys.foldl Entries.remove es)).Nodup ∧
      ∀ k, Entries.find? (keys.foldl Entries.remove es) k =
        if k ∈ keys then none else Entries.find? es k := by
  induction keys generalizing es with
  | nil => exact ⟨hes, fun k => by simp⟩
  | cons key keys ih =>
    obtain ⟨hnodup, hfind⟩ := ih (Entries.nodup_keys_remove hes key)
    refine ⟨hnodup, fun k => ?_⟩
    rw [List.foldl_cons, hfind, Entries.find?_remove hes]
    by_cases hk : k = key <;> simp [hk]

/-- The closing write of the overlay comes under one name and leaves the other names empty. -/
theorem get?_replaceClosing (hobject : document.isObject) (hkeys : document.keys.Nodup)
    (k : String) : (replaceClosing overlay document).get? k =
      (overlay.first? closingKeys).elim (document.get? k) fun closing =>
        if k = "cc_suffix" then some closing else if k ∈ closingKeys then none
        else document.get? k := by
  obtain ⟨es, rfl⟩ := Json.exists_of_isObject hobject
  unfold replaceClosing
  cases overlay.first? closingKeys with
  | none => rfl
  | some closing =>
    have hremoved : Entries.find? (closingKeys.foldl Entries.remove es) k = _ :=
      (find?_foldl_remove hkeys closingKeys).2 k
    exact (Entries.find?_insert ..).trans (by rw [hremoved]; rfl)

theorem get?_hideNodes (h : document.isObject) (k : String) :
    (hideNodes hide document).get? k =
      if k = "groups" ∧ ¬hide.isEmpty then
        some (.arr (filterGroups hide (document.nodes "groups")))
      else document.get? k := by
  unfold hideNodes
  by_cases hempty : hide.isEmpty
  · simp [hempty]
  · rw [if_neg hempty, Json.get?_set h]
    simp [hempty]

theorem nodup_keys_overlayGroups (h : document.keys.Nodup) :
    (overlayGroups overlay document).keys.Nodup := by
  unfold overlayGroups
  split
  · exact Json.nodup_keys_set h
  · exact h

theorem nodup_keys_replaceClosing (h : document.keys.Nodup) :
    (replaceClosing overlay document).keys.Nodup := by
  unfold replaceClosing
  split
  · exact Entries.nodup_keys_insert (find?_foldl_remove h closingKeys).1 ..
  · exact h

theorem nodup_keys_hideNodes (h : document.keys.Nodup) : (hideNodes hide document).keys.Nodup := by
  unfold hideNodes
  split
  · exact h
  · exact Json.nodup_keys_set h

theorem nodes_hideNodes (h : document.isObject) : (hideNodes hide document).nodes "groups" =
    if hide.isEmpty then document.nodes "groups"
    else filterGroups hide (document.nodes "groups") := by
  unfold hideNodes
  split
  · rfl
  · exact Json.nodes_of_array? (Json.array?_set h _)

theorem get?_mergeOverlay_groups (hobject : document.isObject) (hkeys : document.keys.Nodup) :
    (mergeOverlay document (some overlay)).get? "groups" =
      (overlay.array? "groups").elim (document.get? "groups") fun overlays =>
        some (.arr (mergeGroups (document.nodes "groups") overlays)) := by
  have hobject' : (overlayGroups overlay document).isObject :=
    (isObject_overlayGroups ..).trans hobject
  have hname : "groups" ≠ "cc_suffix" ∧ "groups" ∉ closingKeys := by decide
  rw [mergeOverlay, Option.elim_some,
    get?_replaceClosing hobject' (nodup_keys_overlayGroups hkeys)]
  simp only [if_neg hname.1, if_neg hname.2, get?_overlayGroups hobject, if_pos]
  cases overlay.first? closingKeys <;> rfl

theorem nodes_mergeOverlay (hobject : document.isObject) (hkeys : document.keys.Nodup) :
    (mergeOverlay document (some overlay)).nodes "groups" =
      mergeGroups (document.nodes "groups") (overlay.nodes "groups") := by
  have hget : (mergeOverlay document (some overlay)).get? "groups" = _ :=
    get?_mergeOverlay_groups hobject hkeys
  cases harray : overlay.array? "groups" with
  | none =>
    rw [harray, Option.elim_none] at hget
    rw [Json.nodes, Json.array?_congr hget, Json.nodes_of_array?_eq_none harray]
    rfl
  | some overlays =>
    rw [harray, Option.elim_some] at hget
    rw [Json.nodes_of_array? (Json.array?_eq_some_iff.2 hget), Json.nodes_of_array? harray]

theorem nodup_keys_applyOverlay {overlay : Option Json} (h : document.keys.Nodup) :
    (applyOverlay document overlay hide).keys.Nodup := by
  rw [applyOverlay_eq]
  refine nodup_keys_hideNodes ?_
  cases overlay with
  | none => exact h
  | some o => exact nodup_keys_replaceClosing (nodup_keys_overlayGroups h)

/-- Fields other than the groups come from the document, except for the closing write. -/
theorem get?_applyOverlay (hobject : document.isObject) (hkeys : document.keys.Nodup) {k : String}
    (hk : k ≠ "groups") : (applyOverlay document (some overlay) hide).get? k =
      (overlay.first? closingKeys).elim (document.get? k) fun closing =>
        if k = "cc_suffix" then some closing else if k ∈ closingKeys then none
        else document.get? k := by
  have hmerged : (mergeOverlay document (some overlay)).isObject :=
    (isObject_mergeOverlay ..).trans hobject
  have hgroups : (overlayGroups overlay document).isObject :=
    (isObject_overlayGroups ..).trans hobject
  rw [applyOverlay_eq, get?_hideNodes hmerged, if_neg (hk ·.1), mergeOverlay, Option.elim_some,
    get?_replaceClosing hgroups (nodup_keys_overlayGroups hkeys), get?_overlayGroups hobject,
    if_neg hk]

theorem nodes_applyOverlay (hobject : document.isObject) (hkeys : document.keys.Nodup) :
    (applyOverlay document (some overlay) hide).nodes "groups" =
      if (hide ++ hiddenBy overlay).isEmpty then
        mergeGroups (document.nodes "groups") (overlay.nodes "groups")
      else
        filterGroups (hide ++ hiddenBy overlay)
          (mergeGroups (document.nodes "groups") (overlay.nodes "groups")) := by
  have hmerged : (mergeOverlay document (some overlay)).isObject :=
    (isObject_mergeOverlay ..).trans hobject
  rw [applyOverlay_eq, nodes_hideNodes hmerged, nodes_mergeOverlay hobject hkeys]
  rfl

/-- A document gets an array of groups unless there is nothing to add and nothing to hide. -/
theorem get?_applyOverlay_groups (hobject : document.isObject) (hkeys : document.keys.Nodup) :
    (applyOverlay document (some overlay) hide).get? "groups" =
      if (hide ++ hiddenBy overlay).isEmpty ∧ overlay.array? "groups" = none then
        document.get? "groups"
      else some (.arr ((applyOverlay document (some overlay) hide).nodes "groups")) := by
  have hmerged : (mergeOverlay document (some overlay)).isObject :=
    (isObject_mergeOverlay ..).trans hobject
  rw [nodes_applyOverlay hobject hkeys, applyOverlay_eq, get?_hideNodes hmerged,
    nodes_mergeOverlay hobject hkeys, get?_mergeOverlay_groups hobject hkeys]
  by_cases hempty : (hide ++ hiddenBy overlay).isEmpty
  · cases harray : overlay.array? "groups" <;>
      simp [allHidden, hempty, harray, Json.nodes]
  · simp [allHidden, hempty]

end

end RegisterImage
