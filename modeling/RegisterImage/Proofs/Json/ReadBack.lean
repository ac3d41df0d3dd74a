import Mathlib
import RegisterImage.Json.Printer
import RegisterImage.Json.Reader

/-!
# Reading written documents back

A document of texts and objects that is written, on one line or on many, is read back from what
was written. The keys of every object have to be distinct, and no more objects may be inside one
another than a reader takes.

## Main definitions

* `readCharacters_flatMap_escaped` — a quoted text is read back.
* `Json.Textual` — documents of texts and objects.
* `Json.Textual.readValue_render` — such a document is read back, whatever follows it.
* `Json.Textual.parse?_compact`, `Json.Textual.parse?_pretty` — and as a whole text.
-/

namespace RegisterImage

namespace Json

/-! ## Texts -/

theorem readUnit_append {digits : List Char} {n : Nat} (h : readUnit digits = some (n, []))
    (s : List Char) : readUnit (digits ++ s) = some (n, s) := by
  match digits with
  | [] | [_] | [_, _] | [_, _, _] => cases h
  | a :: b :: c :: d :: digits =>
    simp only [readUnit, Option.bind_eq_bind, Option.bind_eq_some_iff, Option.some.injEq,
      Prod.mk.injEq] at h
    obtain ⟨a', ha, b', hb, c', hc, d', hd, hn, rfl⟩ := h
    simp [readUnit, ha, hb, hc, hd, hn]

/-- Four digits stand for a control character. -/
theorem readUnit_control : ∀ n < 0x20,
    readUnit ((paddedNumeral 16 4 n).map Char.toLower) = some (n, []) := by
  decide +kernel

theorem readEscape_control {c : Char} (h : c.toNat < 0x20) (s : List Char) :
    readEscape .checked ('u' :: (paddedNumeral 16 4 c.toNat).map Char.toLower ++ s) =
      some (c, s) := by
  have hunit := readUnit_append (readUnit_control _ h) s
  have hhigh : ¬(0xD800 ≤ c.toNat ∧ c.toNat < 0xDC00) := by omega
  have hlow : ¬(0xDC00 ≤ c.toNat ∧ c.toNat < 0xE000) := by omega
  simp [readEscape, readEscapedUnit, hunit, hhigh, hlow]

/-- One character is read back from its written form. -/
theorem readCharacters_escaped (fuel : Nat) (read : List Char) (c : Char) (s : List Char) :
    readCharacters .checked (fuel + 1) read (escaped c ++ s) =
      readCharacters .checked fuel (c :: read) s := by
  unfold escaped
  split
  all_goals try rfl
  split
  · rename_i hcontrol
    have hescape := readEscape_control hcontrol s
    simp only [List.cons_append] at hescape ⊢
    rw [readCharacters, if_neg (by decide), if_pos rfl, hescape]
  · rename_i hquote hslash _ _ _ _ _ hcontrol
    simp only [List.cons_append, List.nil_append]
    rw [readCharacters, if_neg hquote, if_neg hslash, if_neg hcontrol]

theorem length_le_flatMap_escaped (cs : List Char) :
    cs.length ≤ (cs.flatMap escaped).length := by
  induction cs with
  | nil => simp
  | cons c cs ih =>
    have hpos : 0 < (escaped c).length := by
      unfold escaped
      split
      all_goals try decide
      split <;> simp
    rw [List.flatMap_cons, List.length_append, List.length_cons]
    omega

theorem readCharacters_flatMap_escaped (cs : List Char) {fuel : Nat} (h : cs.length < fuel)
    (read s : List Char) :
    readCharacters .checked fuel read (cs.flatMap escaped ++ '"' :: s) =
      some (String.ofList (read.reverse ++ cs), s) := by
  induction cs generalizing fuel read with
  | nil =>
    obtain ⟨fuel, rfl⟩ := Nat.exists_eq_add_one_of_ne_zero (Nat.ne_zero_of_lt h)
    simp [readCharacters]
  | cons c cs ih =>
    obtain ⟨fuel, rfl⟩ := Nat.exists_eq_add_one_of_ne_zero (Nat.ne_zero_of_lt h)
    rw [List.length_cons] at h
    rw [List.flatMap_cons, List.append_assoc, readCharacters_escaped, ih (by omega)]
    simp

theorem length_lt_quoted (t : String) : t.toList.length + 1 < (quoted t).length := by
  have hle := length_le_flatMap_escaped t.toList
  simp only [quoted, List.length_cons, List.length_append, List.length_nil]
  omega

theorem readCharacters_quoted (t : String) {fuel : Nat} (h : (quoted t).length ≤ fuel)
    (s : List Char) :
    ∃ rest, quoted t ++ s = '"' :: rest ∧ readCharacters .checked fuel [] rest = some (t, s) := by
  have hlt := length_lt_quoted t
  refine ⟨t.toList.flatMap escaped ++ '"' :: s, by simp [quoted], ?_⟩
  rw [readCharacters_flatMap_escaped _ (by omega)]
  simp

/-! ## Blanks -/

theorem skipBlank_replicate (n : Nat) (s : List Char) :
    skipBlank (List.replicate n ' ' ++ s) = skipBlank s := by
  induction n with
  | zero => rfl
  | succ n ih => simpa [List.replicate_succ, skipBlank] using ih

theorem skipBlank_lineBreak (level : Option Nat) (s : List Char) :
    skipBlank (lineBreak level ++ s) = skipBlank s := by
  cases level with
  | none => rfl
  | some level => simpa [lineBreak, skipBlank] using skipBlank_replicate (2 * level) s

/-! ## Documents of texts and objects -/

/-- Documents of texts and of objects with distinct keys, with at most so many objects inside one
another. -/
def Textual : Nat → Json → Prop
  | _, str _ => True
  | depth + 1, obj es => (es.map (·.1)).Nodup ∧ ∀ e ∈ es, Textual depth e.2
  | _, _ => False

theorem Textual.skipBlank_render {depth : Nat} {j : Json} (h : Textual depth j)
    (level : Option Nat) (s : List Char) :
    skipBlank (render level j ++ s) = render level j ++ s := by
  cases j with
  | str t => rfl
  | obj es => rcases es with - | ⟨e, es⟩ <;> rfl
  | _ => cases depth <;> cases h

section Entries

variable {level : Option Nat} {es : List (String × Json)}

theorem renderEntries_singleton (e : String × Json) : renderEntries level [e] =
    lineBreak level ++ (quoted e.1 ++ (colon level ++ render level e.2)) := by
  simp [renderEntries]

theorem renderEntries_cons (e : String × Json) (hne : es ≠ []) : renderEntries level (e :: es) =
    lineBreak level ++ (quoted e.1 ++ (colon level ++ (render level e.2 ++
      ',' :: renderEntries level es))) := by
  cases es with
  | nil => exact absurd rfl hne
  | cons e' es => simp [renderEntries]

/-- Key and value of an entry are no longer than all the entries. -/
theorem length_le_renderEntries (level : Option Nat) {e : String × Json} (he : e ∈ es) :
    (quoted e.1).length + (render level e.2).length ≤ (renderEntries level es).length := by
  induction es with
  | nil => cases he
  | cons e' es ih =>
    by_cases hnil : es = []
    · subst hnil
      obtain rfl := List.mem_singleton.1 he
      rw [renderEntries_singleton]
      simp only [List.length_append]
      omega
    · rw [renderEntries_cons e' hnil]
      simp only [List.length_append, List.length_cons]
      rcases List.mem_cons.1 he with rfl | hmem
      · omega
      · have hle := ih hmem
        omega

/-- A reader that takes the values of entries off the front of a text. -/
def ReadsValues (value : String → Reader Json) (level : Option Nat) (es : List (String × Json)) :
    Prop :=
  ∀ e ∈ es, ∀ s, skipBlank (render level e.2 ++ s) = render level e.2 ++ s ∧
    value e.1 (render level e.2 ++ s) = some (e.2, s)

variable {value : String → Reader Json}

theorem readEntry_render {e : String × Json} (hvalue : ReadsValues value level [e]) {fuel : Nat}
    (hfuel : (quoted e.1).length ≤ fuel) (s : List Char) :
    readEntry .checked value fuel (quoted e.1 ++ (colon level ++ (render level e.2 ++ s))) =
      some (e, s) := by
  obtain ⟨rest, hrest, hread⟩ := readCharacters_quoted e.1 hfuel
    (colon level ++ (render level e.2 ++ s))
  obtain ⟨hskip, hval⟩ := hvalue e (List.mem_singleton_self e) s
  obtain ⟨rest', hcolon, hskip'⟩ : ∃ rest,
      skipBlank (colon level ++ (render level e.2 ++ s)) = ':' :: rest ∧
        skipBlank rest = render level e.2 ++ s := by
    cases level with
    | none => exact ⟨_, rfl, hskip⟩
    | some level => exact ⟨' ' :: (render (some level) e.2 ++ s), rfl, hskip⟩
  simp [hrest, readEntry, hread, hcolon, hskip', hval]

theorem skipBlank_quoted (t : String) (s : List Char) :
    skipBlank (quoted t ++ s) = quoted t ++ s := rfl

/-- By induction on the entries. Each takes at least one character, so that the fuel lasts. -/
theorem readEntries_render (hne : es ≠ []) (hvalue : ReadsValues value level es) {fuel : Nat}
    (hfuel : (renderEntries level es).length < fuel) (read : List (String × Json))
    (outer : Option Nat) (s : List Char) :
    readEntries .checked value fuel read (renderEntries level es ++ (lineBreak outer ++ '}' :: s)) =
      some (read.reverse ++ es, s) := by
  induction es generalizing fuel read with
  | nil => exact absurd rfl hne
  | cons e es ih =>
    obtain ⟨fuel, rfl⟩ := Nat.exists_eq_add_one_of_ne_zero (Nat.ne_zero_of_lt hfuel)
    have hkey := length_le_renderEntries level (List.mem_cons_self (a := e) (l := es))
    have hone : ReadsValues value level [e] := fun e' he' =>
      hvalue e' (List.mem_singleton.1 he' ▸ List.mem_cons_self)
    have hentry := readEntry_render hone (show (quoted e.1).length ≤ fuel by omega)
    by_cases hnil : es = []
    · subst hnil
      have hclose : skipBlank (lineBreak outer ++ '}' :: s) = '}' :: s := skipBlank_lineBreak ..
      rw [renderEntries_singleton]
      simp only [List.append_assoc, readEntries, skipBlank_lineBreak, skipBlank_quoted, hentry,
        hclose, List.reverse_cons]
    · have hcomma (t : List Char) : skipBlank (',' :: t) = ',' :: t := rfl
      have hrest := fun e' he' => hvalue e' (List.mem_cons_of_mem e he')
      have hfuel' : (renderEntries level es).length < fuel := by
        rw [renderEntries_cons e hnil] at hfuel
        simp only [List.length_append, List.length_cons] at hfuel
        omega
      rw [renderEntries_cons e hnil]
      simp only [List.append_assoc, List.cons_append, readEntries, skipBlank_lineBreak,
        skipBlank_quoted, hentry, hcomma]
      rw [ih hnil hrest hfuel']
      simp

/-- The entries of an object that has some, from its opening brace on. -/
theorem readObject_render (hne : es ≠ []) (hvalue : ReadsValues value level es) {fuel : Nat}
    (hfuel : (renderEntries level es).length < fuel) (outer : Option Nat) (s : List Char) :
    readObject .checked value fuel (renderEntries level es ++ (lineBreak outer ++ '}' :: s)) =
      some (es, s) := by
  have hread := readEntries_render hne hvalue hfuel [] outer s
  obtain ⟨rest, hrest⟩ : ∃ rest, skipBlank (renderEntries level es ++
      (lineBreak outer ++ '}' :: s)) = '"' :: rest := by
    obtain ⟨e, es, rfl⟩ := List.exists_cons_of_ne_nil hne
    by_cases hnil : es = []
    · subst hnil
      rw [renderEntries_singleton, List.append_assoc, skipBlank_lineBreak]
      exact ⟨_, rfl⟩
    · rw [renderEntries_cons e hnil, List.append_assoc, skipBlank_lineBreak]
      exact ⟨_, rfl⟩
  obtain ⟨fuel, rfl⟩ := Nat.exists_eq_add_one_of_ne_zero (Nat.ne_zero_of_lt hfuel)
  have hskip : skipBlank ('"' :: rest) = '"' :: rest := rfl
  rw [readEntries, hrest] at hread
  rw [readObject, hrest]
  change readEntries .checked value (fuel + 1) [] ('"' :: rest) = _
  rw [readEntries, hskip]
  exact hread

end Entries

theorem insert_eq_append {es : Entries} {key : String} (h : key ∉ es.map (·.1)) (v : Json) :
    Entries.insert key v es = es ++ [(key, v)] := by
  induction es with
  | nil => rfl
  | cons e es ih =>
    simp only [List.map_cons, List.mem_cons, not_or] at h
    simp [Entries.insert, Ne.symm h.1, ih h.2]

/-- Distinct keys stay where they are written. -/
theorem ofWritten_of_nodup {es : Entries} (h : (es.map (·.1)).Nodup) :
    Entries.ofWritten es = es := by
  induction es using List.reverseRecOn with
  | nil => rfl
  | append_singleton es e ih =>
    rw [List.map_append, List.nodup_append] at h
    have hkey : e.1 ∉ es.map (·.1) := fun hmem => h.2.2 _ hmem _ (by simp) rfl
    have hes := ih h.1
    simp only [Entries.ofWritten] at hes ⊢
    rw [List.foldl_append, hes]
    exact insert_eq_append hkey e.2

/-! ## Whole documents -/

theorem readValue_quoted (t : String) {fuel : Nat} (hfuel : (quoted t).length ≤ fuel) (depth : Nat)
    (s : List Char) : readValue .checked fuel depth (quoted t ++ s) = some (str t, s) := by
  obtain ⟨rest, hrest, hread⟩ := readCharacters_quoted t hfuel s
  cases depth <;> simp [hrest, readValue, readScalar, hread]

theorem Textual.readValue_render {n : Nat} {j : Json} (h : Textual n j) {depth : Nat}
    (hdepth : n ≤ depth) (level : Option Nat) {fuel : Nat}
    (hfuel : (render level j).length < fuel) (s : List Char) :
    readValue .checked fuel depth (render level j ++ s) = some (j, s) := by
  induction n generalizing j depth level s with
  | zero =>
    cases j with
    | str t => exact readValue_quoted t hfuel.le depth s
    | _ => cases h
  | succ n ih =>
    cases j with
    | str t => exact readValue_quoted t hfuel.le depth s
    | obj es =>
      obtain ⟨hnodup, hes⟩ := h
      obtain ⟨depth, rfl⟩ := Nat.exists_eq_add_of_le' (Nat.le_trans n.succ_pos hdepth)
      rcases es with - | ⟨e, es⟩
      · rfl
      · have hinner : (renderEntries (level.map (· + 1)) (e :: es)).length < fuel := by
          simp only [render, List.length_append, List.length_cons] at hfuel
          omega
        have hreads : ReadsValues (fun _ => readValue .checked fuel depth) (level.map (· + 1))
            (e :: es) := by
          intro e' he' s'
          have hle := length_le_renderEntries (level.map (· + 1)) he'
          exact ⟨(hes e' he').skipBlank_render .., ih (hes e' he') (by omega) _ (by omega) s'⟩
        have hobject := readObject_render (List.cons_ne_nil e es) hreads hinner level s
        simp only [render, readValue, List.append_assoc, List.cons_append, List.nil_append,
          hobject, Option.map_some, ofWritten_of_nodup hnodup]
    | _ => cases h

theorem Textual.parse?_render {n : Nat} {j : Json} (h : Textual n j) (hn : n ≤ maxDepth)
    (level : Option Nat) : parse? (String.ofList (render level j)) = some j := by
  have hskip := h.skipBlank_render level []
  have hread := h.readValue_render hn level (Nat.lt_succ_self _) []
  rw [List.append_nil] at hskip hread
  simp [parse?, whole?, hskip, hread, skipBlank]

theorem Textual.parse?_compact {n : Nat} {j : Json} (h : Textual n j) (hn : n ≤ maxDepth) :
    parse? j.compact = some j :=
  h.parse?_render hn none

theorem Textual.parse?_pretty {n : Nat} {j : Json} (h : Textual n j) (hn : n ≤ maxDepth) :
    parse? j.pretty = some j :=
  h.parse?_render hn (some 0)

end Json

end RegisterImage
