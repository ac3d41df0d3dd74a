import Mathlib.Data.List.Basic
import RegisterImage.Session

/-!
# Shapes of profiles

The same values can be written in a profile as an object of their own, as a list of records, or
as plain entries of the document. The shapes are told apart by what stands under three keys, and
a scalar under one of these keys is a value like any other, so that it does not matter what the
codes are called. Plain entries may have company: scalars under keys that are no codes.

## Main definitions

* `Scalar.Readable` — the scalars that are read from documents.
* `ProfileShape` — the documents that hold a list of values.
* `profileValues?_of_shape` — the list is read from all of them.
* `applyProfile_of_shape` — a profile sets the same values in every shape.
-/

namespace RegisterImage

/-! ## Scalars -/

/-- An integer is read when it fits a signed word of 64 bits. -/
def Scalar.Readable : Scalar → Prop
  | int n => -0x8000000000000000 ≤ n ∧ n < 0x8000000000000000
  | text _ => True

theorem Scalar.ofJson?_toJson {x : Scalar} (h : x.Readable) : ofJson? x.toJson = some x := by
  cases x with
  | int n =>
    have hfits : -0x8000000000000000 ≤ n ∧ n < 0x8000000000000000 := h
    change (if _ then some n else none).map int = _
    rw [if_pos hfits, Option.map_some]
  | text s => rfl

theorem Scalar.toJson_ne_obj (x : Scalar) (es : Entries) : x.toJson ≠ .obj es := by
  cases x <;> exact Json.noConfusion

theorem Scalar.toJson_ne_arr (x : Scalar) (xs : List Json) : x.toJson ≠ .arr xs := by
  cases x <;> exact Json.noConfusion

/-! ## Shapes -/

/-- Values as the entries of an object. -/
def valueEntries (values : List (String × Scalar)) : Entries :=
  values.map fun e => (e.1, e.2.toJson)

/-- A value as a record. -/
def valueRecord (e : String × Scalar) : Json :=
  .obj [("code", .str e.1), ("value", e.2.toJson)]

/-- The keys by which the shapes are told apart. -/
def shapeKeys : List String :=
  ["values", "registers", "items"]

/-- A document with values for codes of a catalog. What stands before an object or a list of
values has other keys, and plain entries are values when their keys are codes. -/
inductive ProfileShape (c : Catalog) (values : List (String × Scalar)) : Json → Prop where
  | object (heading : Entries) : (∀ e ∈ heading, e.1 ∉ shapeKeys) →
      ProfileShape c values (.obj (heading ++ [("values", .obj (valueEntries values))]))
  | records (heading : Entries) {key : String} : (∀ e ∈ heading, e.1 ∉ shapeKeys) →
      key ∈ ["registers", "items"] →
      ProfileShape c values (.obj (heading ++ [(key, .arr (values.map valueRecord))]))
  | plain (entries : List (String × Scalar)) :
      entries.filter (c.contains ·.1) = values → ProfileShape c values (.obj (valueEntries entries))

variable {values : List (String × Scalar)}

theorem scalarEntries_valueEntries (h : ∀ e ∈ values, e.2.Readable) :
    scalarEntries (valueEntries values) = values := by
  rw [scalarEntries, valueEntries, List.filterMap_map]
  refine (List.filterMap_congr fun e he => ?_).trans List.filterMap_some
  simp [Scalar.ofJson?_toJson (h e he)]

theorem valueRecord?_valueRecord {e : String × Scalar} (h : e.2.Readable) :
    valueRecord? (valueRecord e) = some e := by
  simp [valueRecord?, valueRecord, Json.get?, Json.entries?, Json.string?,
    Scalar.ofJson?_toJson h]

theorem filterMap_valueRecord (h : ∀ e ∈ values, e.2.Readable) :
    (values.map valueRecord).filterMap valueRecord? = values := by
  rw [List.filterMap_map]
  exact (List.filterMap_congr fun e he => valueRecord?_valueRecord (h e he)).trans
    List.filterMap_some

theorem someUnlessEmpty_eq {α : Type} {xs : List α} (h : xs ≠ []) : someUnlessEmpty xs = some xs :=
  if_neg (by simpa using h)

/-- A key that is not in front is looked up in what follows. -/
theorem find?_heading_append {heading : Entries} (h : ∀ e ∈ heading, e.1 ∉ shapeKeys)
    {key : String} (hkey : key ∈ shapeKeys) (es : Entries) :
    Entries.find? (heading ++ es) key = Entries.find? es key := by
  induction heading with
  | nil => rfl
  | cons e heading ih =>
    obtain ⟨he, hrest⟩ := List.forall_mem_cons.1 h
    have hne : key ≠ e.1 := fun heq => he (heq ▸ hkey)
    rw [List.cons_append, Entries.find?_cons, if_neg hne, ih hrest]

/-- Under every key of plain entries stands a scalar, if anything does. -/
theorem exists_scalar_of_find? {entries : List (String × Scalar)} {key : String} {j : Json}
    (h : Entries.find? (valueEntries entries) key = some j) : ∃ x : Scalar, j = x.toJson := by
  obtain ⟨_, _, hsplit, -⟩ := List.lookup_eq_some_iff.1 h
  have hmem : (key, j) ∈ valueEntries entries := by
    rw [hsplit]
    simp
  obtain ⟨e, -, he⟩ := List.mem_map.1 hmem
  exact ⟨e.2, (Prod.ext_iff.1 he).2.symm⟩

/-- Entries that hold scalars under the keys of the other shapes are plain entries. -/
theorem profileValues?_of_plain (c : Catalog) (entries : List (String × Scalar)) :
    profileValues? (.obj (valueEntries entries)) c =
      someUnlessEmpty (scalarEntries (valueEntries (entries.filter (c.contains ·.1)))) := by
  have hfilter : (valueEntries entries).filter (fun e => c.contains e.1) =
      valueEntries (entries.filter (c.contains ·.1)) := List.filter_map
  rw [← hfilter]
  simp only [profileValues?, Json.entries?, Option.bind_eq_bind, Option.bind_some]
  split
  · rename_i hvalues
    obtain ⟨x, hx⟩ := exists_scalar_of_find? hvalues
    exact absurd hx.symm (x.toJson_ne_obj _)
  · rename_i hrecords _
    obtain ⟨key, -, hkey⟩ := List.exists_of_findSome?_eq_some hrecords
    obtain ⟨x, hx⟩ := exists_scalar_of_find? hkey
    exact absurd hx.symm (x.toJson_ne_arr _)
  · rfl

theorem profileValues?_of_shape {c : Catalog} (hne : values ≠ [])
    (hreadable : ∀ e ∈ values, e.2.Readable) {document : Json}
    (h : ProfileShape c values document) : profileValues? document c = some values := by
  cases h with
  | object heading hheading =>
    simp only [profileValues?, Json.entries?, Option.bind_eq_bind, Option.bind_some,
      find?_heading_append hheading (show "values" ∈ shapeKeys by decide)]
    simp [scalarEntries_valueEntries hreadable]
  | records heading hheading hkey =>
    have hvalues := find?_heading_append hheading (show "values" ∈ shapeKeys by decide)
    have hregisters := find?_heading_append hheading (show "registers" ∈ shapeKeys by decide)
    have hitems := find?_heading_append hheading (show "items" ∈ shapeKeys by decide)
    simp only [profileValues?, Json.entries?, Option.bind_eq_bind, Option.bind_some, hvalues,
      Entries.first?, List.findSome?_cons, hregisters, hitems]
    simp only [List.mem_cons, List.not_mem_nil, or_false] at hkey
    rcases hkey with rfl | rfl <;>
      simp [filterMap_valueRecord hreadable, someUnlessEmpty_eq hne]
  | plain entries hentries =>
    rw [profileValues?_of_plain, hentries, scalarEntries_valueEntries hreadable,
      someUnlessEmpty_eq hne]

/-- Whatever shape a profile has, its values are read in their order, and applying it gives the
settings and the summary of these values, whatever was set before. -/
theorem applyProfile_of_shape {c : Catalog} (hne : values ≠ [])
    (hreadable : ∀ e ∈ values, e.2.Readable) :
    ∀ document, ProfileShape c values document →
      profileValues? document c = some values ∧
      ∀ (settings : Settings) (buffer : Bytes),
        Session.step ⟨c, settings, buffer⟩ (.applyProfile document) =
          (.ok (.values (Settings.applyValues c values).2.2),
            ⟨(Settings.applyValues c values).2.1, (Settings.applyValues c values).1, buffer⟩) := by
  intro document h
  have hvalues := profileValues?_of_shape hne hreadable h
  refine ⟨hvalues, fun settings buffer => ?_⟩
  simp only [Session.step, Session.applyProfile, hvalues]
  rfl

/-- Codes that are called like the keys of the shapes, among plain entries one more such key. -/
theorem applyProfile_of_shape_named_values :
    let register (code : String) : Register :=
      ⟨code, none, none, .text "0x400", some (.int 1), some (.text "0x0"), none, false, .plain,
        none, none, none, none⟩
    let c : Catalog := ⟨.obj [], [register "items", register "values"], none, none, []⟩
    let values : List (String × Scalar) := [("values", .int 5), ("items", .text "0x07")]
    let documents : List Json := [
      .obj [("values", .obj [("values", .int 5), ("items", .str "0x07")])],
      .obj [("registers", .arr [.obj [("code", .str "values"), ("value", .int 5)],
        .obj [("code", .str "items"), ("value", .str "0x07")]])],
      .obj [("profile", .str "Board"), ("items", .arr [
        .obj [("code", .str "values"), ("value", .int 5)],
        .obj [("code", .str "items"), ("value", .str "0x07")]])],
      .obj [("registers", .str "all"), ("values", .int 5), ("profile", .str "Board"),
        ("items", .str "0x07")]]
    values ≠ [] ∧ (∀ e ∈ values, e.2.Readable) ∧
    ∀ document ∈ documents, ProfileShape c values document ∧
      profileValues? document c = some values ∧
      ∃ s, Session.step (.start c) (.applyProfile document) = (.ok (.values ⟨2, 0⟩), s) ∧
        s.settings.value? "values" = some "0x5" ∧ s.settings.value? "items" = some "0x7" := by
  intro register c values documents
  have hreadable : ∀ e ∈ values, e.2.Readable := by
    simp [values, Scalar.Readable]
  have hshape : ∀ document ∈ documents, ProfileShape c values document := by
    simp only [documents, List.forall_mem_cons]
    refine ⟨.object [] (by simp), .records [] (by simp) (by simp),
      .records [("profile", .str "Board")] (by simp [shapeKeys]) (by simp),
      .plain [("registers", .text "all"), ("values", .int 5), ("profile", .text "Board"),
        ("items", .text "0x07")] (by decide), by simp⟩
  refine ⟨by simp [values], hreadable, fun document hdocument => ?_⟩
  obtain ⟨hvalues, hstep⟩ :=
    applyProfile_of_shape (by simp [values]) hreadable document (hshape document hdocument)
  have hsummary : (Settings.applyValues c values).2.2 = ⟨2, 0⟩ := by decide +kernel
  rw [hsummary] at hstep
  exact ⟨hshape document hdocument, hvalues, _, hstep .empty [], by decide +kernel,
    by decide +kernel⟩

end RegisterImage
