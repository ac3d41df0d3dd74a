import RegisterImage.Proofs.Menu.Spans
import RegisterImage.Proofs.Text.Written
import RegisterImage.Menu.Field

/-!
# Choices in order

A descriptor declares alternatives in an order of its own, and in several forms that may stand
side by side. Each alternative with a readable value becomes one choice. Choices go by their
values, and those with the same value stay in the order in which they were declared, so that it is
the first of them that the bits of a register select.

## Main definitions

* `Declaration` — an alternative as it stands in a descriptor.
* `declarations` — the alternatives of a descriptor, in declared order.
* `choices_eq` — the choices are those of the alternatives, sorted by value.
* `choices_stable` — what the order of the choices is, and which one is selected.
-/

namespace RegisterImage

/-! ## Declared alternatives -/

/-- An alternative as it stands in a descriptor. The value of a label or of a named entry is its
position in the list, that of a keyed label is its key. -/
inductive Declaration where
  | label (position : Nat) (label : Json)
  | record (entries : Entries)
  | named (position : Nat) (entries : Entries)
  | keyed (key : String) (label : Json)

namespace Declaration

def value? : Declaration → Option UInt64
  | label position _ | named position _ => word64? position
  | record es => (es.find? "value").bind Json.number?
  | keyed key _ => readNumber? key

/-- The value as it is written, which stands in for a label. -/
def valueText? : Declaration → Option String
  | label position _ | named position _ => some position.repr
  | record es => (es.find? "value").bind Json.label?
  | keyed key _ => if key = "" then none else some key

/-- The node that names the alternative. -/
def node? : Declaration → Option Json
  | label _ node | keyed _ node => some node
  | named _ es => some (.obj es)
  | record es => es.find? "label"

/-- A node names an alternative by its text, or by an entry when it is an object. -/
def nameIn? : Json → Option String
  | .obj es => (Entries.first? es ["name", "label"]).bind Json.label?
  | node => node.label?

/-- The sequence of a record is its own or else that of its label. -/
def sequenceNode? : Declaration → Option Json
  | record es => es.find? "sequence" <|> (es.find? "label").bind (·.get? "sequence")
  | d => d.node?.bind (·.get? "sequence")

/-- The choice of an alternative whose value reads as a number. -/
def choice? (d : Declaration) : Option Choice :=
  d.value?.map fun value => {
    value
    label := (d.node?.bind nameIn? <|> d.valueText?).getD ""
    sequence := d.sequenceNode?.bind Json.sequence? }

end Declaration

/-- The alternatives that an element of a list declares: an object is a record when it has a value
or a label, else a named entry when it has a name or a sequence, else a set of keyed labels. -/
def declarationsAt (position : Nat) : Json → List Declaration
  | .obj es =>
    if Entries.contains es "value" ∨ Entries.contains es "label" then [.record es]
    else if Entries.contains es "name" ∨ Entries.contains es "sequence" then [.named position es]
    else es.map fun e => .keyed e.1 e.2
  | .str s => [.label position (.str s)]
  | .int n => [.label position (.int n)]
  | .float x => [.label position (.float x)]
  | .null | .bool _ | .arr _ => []

def declarations : Json → List Declaration
  | .arr xs => xs.zipIdx.flatMap fun e => declarationsAt e.2 e.1
  | .obj es => es.map fun e => .keyed e.1 e.2
  | _ => []

/-! ## Positions and keys -/

/-- A number in decimal is read as the number. -/
theorem readNumber?_decimalText (n : Nat) : readNumber? (decimalText n) = word64? n := by
  have hlt : ∀ d ∈ digits 10 n, d < 10 := fun d hd => lt_of_mem_digits (by decide) hd
  have hblank : ∀ c ∈ numeral 10 n, isBlank c = false := by
    intro c hc
    obtain ⟨d, hd, rfl⟩ := List.mem_map.1 hc
    exact isBlank_digitChar (by have := hlt d hd; omega)
  have hchars : numeral 10 n ⊆ hexChars := by
    intro c hc
    obtain ⟨d, hd, rfl⟩ := List.mem_map.1 hc
    exact List.mem_append_left "abcdef".toList
      (digitChar_mem_upperHexChars (by have := hlt d hd; omega))
  have hlead : afterHexLead? (numeral 10 n) = none := by
    rw [afterHexLead?, afterLead?_eq_none hchars (by decide),
      afterLead?_eq_none hchars (by decide)]
    rfl
  have hletter : ((numeral 10 n).any fun c => isHexDigit c && !isDigit c) = false := by
    rw [List.any_eq_false]
    intro c hc
    obtain ⟨d, hd, rfl⟩ := List.mem_map.1 hc
    simp [isDigit, digit?_digitChar (by decide) (hlt d hd)]
  simp only [readNumber?, decimalText, String.toList_ofList, trim_eq_self hblank, hlead, hletter]
  change leadingNumber? 10 (numeral 10 n) >>= word64? = _
  rw [leadingNumber?_numeral (by decide) (by decide)]
  rfl

namespace Declaration

/-- The draft that an alternative is read into. -/
def draft : Declaration → Draft
  | label position node => .atPosition position node
  | record es => .ofRecord es
  | named position es => .atPosition position (.obj es)
  | keyed key node => (Draft.ofValue (.str key)).withLabel (some node)

theorem label_withLabel (d : Draft) (node : Json) :
    (d.withLabel (some node)).label = nameIn? node := by
  cases node <;> rfl

theorem sequence_withLabel (d : Draft) (node : Json) :
    (d.withLabel (some node)).sequence = (d.sequence <|> node.get? "sequence") := by
  cases node <;> simp [Draft.withLabel, Json.get?, Json.entries?]

theorem value_withLabel (d : Draft) (node : Option Json) : (d.withLabel node).value = d.value := by
  cases node with
  | none => rfl
  | some node => cases node <;> rfl

theorem label?_decimalText (n : Nat) : (Json.str (decimalText n)).label? = some n.repr := by
  have hne : (decimalText n).isEmpty = false := by
    simp [decimalText, numeral, digits_ne_nil]
  rw [← decimalText_eq_repr, Json.label?, hne]
  rfl

/-! ## Choices of alternatives -/

theorem number?_draft (d : Declaration) : d.draft.value.number? = d.value? := by
  cases d with
  | label | named => exact (congrArg _ (value_withLabel _ _)).trans (readNumber?_decimalText _)
  | keyed => exact congrArg _ (value_withLabel _ _)
  | record es =>
    rw [draft, Draft.ofRecord, value_withLabel, value?]
    cases es.find? "value" <;> rfl

theorem label_draft (d : Declaration) : d.draft.label = d.node?.bind nameIn? := by
  cases d with
  | label | named | keyed => exact label_withLabel _ _
  | record es =>
    rw [draft, Draft.ofRecord, node?]
    cases es.find? "label" with
    | none => rfl
    | some node => exact label_withLabel _ _

theorem label?_value_draft (d : Declaration) : d.draft.value.label? = d.valueText? := by
  cases d with
  | label | named => exact (congrArg _ (value_withLabel _ _)).trans (label?_decimalText _)
  | keyed key =>
    refine (congrArg _ (value_withLabel _ _)).trans ?_
    simp [Draft.ofValue, Json.label?, valueText?]
  | record es =>
    rw [draft, Draft.ofRecord, value_withLabel, valueText?]
    cases es.find? "value" <;> rfl

theorem sequence_draft (d : Declaration) : d.draft.sequence = d.sequenceNode? := by
  cases d with
  | label | named | keyed => exact sequence_withLabel _ _
  | record es =>
    rw [draft, Draft.ofRecord, sequenceNode?]
    cases es.find? "label" with
    | none => simp [Draft.withLabel]
    | some node => exact sequence_withLabel _ _

theorem ofDraft?_draft (d : Declaration) : Choice.ofDraft? d.draft = d.choice? := by
  rw [Choice.ofDraft?, choice?, number?_draft, Draft.labelOrValue, label_draft,
    label?_value_draft, sequence_draft]

end Declaration

theorem draftsAt_eq (position : Nat) (element : Json) :
    draftsAt position element = (declarationsAt position element).map (·.draft) := by
  cases element with
  | obj es =>
    simp only [draftsAt, declarationsAt, isRecord, Bool.or_eq_true]
    split
    · rfl
    · split
      · rfl
      · rw [List.map_map]
        rfl
  | _ => rfl

theorem drafts_eq (options : Json) : drafts options = (declarations options).map (·.draft) := by
  cases options with
  | arr xs =>
    rw [drafts, declarations, List.map_flatMap]
    simp only [draftsAt_eq]
  | obj es =>
    rw [drafts, declarations, List.map_map]
    rfl
  | _ => rfl

theorem filterMap_ofDraft? (options : Json) :
    (drafts options).filterMap Choice.ofDraft? =
      (declarations options).filterMap Declaration.choice? := by
  rw [drafts_eq, List.filterMap_map]
  exact congrArg (List.filterMap · (declarations options)) (funext Declaration.ofDraft?_draft)

/-! ## The order of choices -/

/-- Whether a choice may stand before another. -/
def Choice.precedes (a b : Choice) : Bool :=
  a.value ≤ b.value

theorem choices_eq (options : Json) : choices options =
    ((declarations options).filterMap Declaration.choice?).mergeSort Choice.precedes := by
  rw [← filterMap_ofDraft?]
  rfl

theorem Choice.precedes_trans (a b c : Choice) (hab : a.precedes b) (hbc : b.precedes c) :
    a.precedes c := by
  rw [precedes, decide_eq_true_iff] at *
  exact UInt64.le_trans hab hbc

theorem Choice.precedes_total (a b : Choice) : (a.precedes b || b.precedes a) = true := by
  rw [Bool.or_eq_true, precedes, precedes, decide_eq_true_iff, decide_eq_true_iff]
  exact UInt64.le_total a.value b.value

/-- Sorting leaves the choices of one value as they are: side by side they are in order already. -/
theorem filter_mergeSort (cs : List Choice) (value : UInt64) :
    (cs.mergeSort Choice.precedes).filter (·.value = value) = cs.filter (·.value = value) := by
  have hpairwise : (cs.filter (·.value = value)).Pairwise (Choice.precedes · ·) := by
    refine List.pairwise_of_forall_mem_list fun a ha b hb => ?_
    simp only [List.mem_filter, decide_eq_true_eq] at ha hb
    rw [Choice.precedes, decide_eq_true_iff, ha.2, hb.2]
    exact UInt64.le_refl value
  have hsublist := (List.sublist_mergeSort Choice.precedes_trans Choice.precedes_total hpairwise
    List.filter_sublist).filter (·.value = value)
  rw [List.filter_filter] at hsublist
  simp only [Bool.and_self] at hsublist
  have hlength := ((List.mergeSort_perm cs Choice.precedes).filter (·.value = value)).length_eq
  exact (hsublist.eq_of_length hlength.symm).symm

theorem choice?_filter (d : Declaration) (value : UInt64) :
    d.choice?.filter (·.value = value) = if d.value? = some value then d.choice? else none := by
  rw [Declaration.choice?]
  cases d.value? with
  | none => simp
  | some n => by_cases h : n = value <;> simp [Option.filter, h]

theorem filter_filterMap_choice? (ds : List Declaration) (value : UInt64) :
    (ds.filterMap Declaration.choice?).filter (·.value = value) =
      (ds.filter (·.value? = some value)).filterMap Declaration.choice? := by
  rw [List.filter_filterMap, List.filterMap_filter]
  refine List.filterMap_congr fun d _ => ?_
  simp [choice?_filter]

/-- The first choice of a value is that of the first alternative with the value. -/
theorem find?_choices (options : Json) (value : UInt64) :
    (choices options).find? (·.value = value) =
      ((declarations options).find? (·.value? = some value)).bind Declaration.choice? := by
  have hany (d : Declaration) :
      d.choice?.any (·.value = value) = decide (d.value? = some value) := by
    rw [Declaration.choice?]
    cases d.value? <;> simp
  rw [← List.head?_filter, choices_eq, filter_mergeSort, List.head?_filter, List.find?_filterMap]
  simp only [hany]

theorem choices_of_ofSubField? {sf : SubField} {r : Register} {f : Field}
    (h : Field.ofSubField? sf r = some f) : f.choices = (sf.options.map choices).getD [] := by
  simp only [Field.ofSubField?, Option.bind_eq_bind, Option.bind_eq_some_iff] at h
  obtain ⟨_, -, _, -, h⟩ := h
  obtain rfl := Option.some.inj h
  rfl

/-- Each alternative with a readable value is one choice, and no other is. The choices ascend, those
of one value are in declared order, and the key of a choice is its value in decimal, which is read
back as the value. The choice that the bits of a field select is that of the first alternative
declared with their number. -/
theorem choices_stable :
    (∀ options,
      (choices options).Perm ((declarations options).filterMap Declaration.choice?) ∧
      (choices options).Pairwise (fun a b => a.value ≤ b.value) ∧
      (∀ value, (choices options).filter (·.value = value) =
        ((declarations options).filter (·.value? = some value)).filterMap Declaration.choice?) ∧
      ∀ c ∈ choices options, c.key = c.value.toNat.repr ∧ readNumber? c.key = some c.value) ∧
    ∀ sf r f, Field.ofSubField? sf r = some f → ∀ value,
      f.selected? value =
        (((sf.options.map declarations).getD []).find? fun d =>
          d.value?.map UInt64.toNat = some (numberAt f.span.lo f.span.hi value)).bind
            Declaration.choice? := by
  refine ⟨fun options => ⟨?_, ?_, fun value => ?_, fun c _ => ⟨?_, ?_⟩⟩, fun sf r f h value => ?_⟩
  · rw [choices_eq]
    exact List.mergeSort_perm _ _
  · rw [choices_eq]
    have hsorted := List.pairwise_mergeSort Choice.precedes_trans Choice.precedes_total
      ((declarations options).filterMap Declaration.choice?)
    exact hsorted.imp fun h => of_decide_eq_true h
  · rw [choices_eq, filter_mergeSort, filter_filterMap_choice?]
  · exact decimalText_eq_repr _
  · rw [Choice.key, readNumber?_decimalText, word64?, if_pos c.value.toNat_lt, UInt64.ofNat_toNat]
  · have hnumber (n? : Option UInt64) :
        n?.map UInt64.toNat = some (numberAt f.span.lo f.span.hi value) ↔
          n? = some (f.span.extract value) := by
      rw [← BitSpan.toNat_extract]
      cases n? <;> simp [UInt64.toNat_inj]
    simp only [hnumber]
    rw [Field.selected?, choices_of_ofSubField? h]
    cases sf.options with
    | none => rfl
    | some options => exact find?_choices options (f.span.extract value)

/-- All forms in one list, an element that declares nothing, and three alternatives for zero: the
bits of the register select the first of them, which has no sequence. -/
theorem choices_stable_of_mixed :
    let options : Json := .arr [.obj [("value", .str "zz"), ("label", .str "broken")],
      .obj [("name", .str "Slow"), ("sequence", .int 4)], .null,
      .obj [("3", .str "Late"), ("0", .str "Off")],
      .obj [("value", .str "0x0"), ("label", .obj [("name", .str "Zero"), ("sequence", .int 9)])],
      .str "Five", .obj [("00", .str "Again"), ("-1", .str "Below")]]
    let sf : SubField :=
      ⟨some "LANE", some (.text "6:4"), some options, none, none, none, none, none⟩
    let r : Register :=
      ⟨"R", none, none, .text "0x400", some (.int 1), none, none, false, .subfield, none,
        some [sf], none, none⟩
    (choices options).length = 6 ∧
    ((choices options).filter (·.value = 0)).map (fun c => (c.label, c.sequence)) =
      [("Off", none), ("Zero", some [9]), ("Again", none)] ∧
    ∃ f, Field.ofSubField? sf r = some f ∧ (f.selected? 0x8F).map (·.label) = some "Off" ∧
      (f.selected? 0x9F).bind (·.sequence) = some [4] ∧ f.selected? 0xAF = none := by
  intro options sf r
  obtain ⟨horder, hselected⟩ := choices_stable
  obtain ⟨hperm, -, hfilter, -⟩ := horder options
  have hspan : Field.spanOf? (.text "6:4") = some ⟨4, 6, by decide, by decide⟩ := by
    decide +kernel
  have hf : Field.ofSubField? sf r =
      some ⟨"LANE", ⟨4, 6, by decide, by decide⟩, 0, 7, choices options⟩ := by
    change (Field.spanOf? (.text "6:4")).bind _ = _
    rw [hspan]
    rfl
  refine ⟨hperm.length_eq.trans (by decide +kernel), ?_, _, hf, ?_, ?_, ?_⟩
  · rw [hfilter]
    decide +kernel
  · rw [hselected sf r _ hf]
    decide +kernel
  · rw [hselected sf r _ hf]
    decide +kernel
  · rw [hselected sf r _ hf]
    decide +kernel

end RegisterImage
