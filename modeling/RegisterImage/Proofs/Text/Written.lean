import RegisterImage.Proofs.Text.Canonical

/-!
# Written hexadecimal numbers

One number may be written in many ways: with blanks around it, with `0x` in front, with zeros
before the other digits, and with letters in either case. The canonical text is the same for all
of them and for no other number, so that numbers of any length are compared by their texts. It is
also read as the number, when that fits 64 bits.

## Main definitions

* `IsCanonicalHex` — the canonical texts.
* `hexNumber` — the number that hexadecimal digits denote.
* `WritesHex` — a text with digits, and the digits in it.
* `WritesHex.canonicalHex_eq` — the canonical text is that of the number.
* `canonicalHex_of_written` — canonical texts stand for numbers.
-/

namespace RegisterImage

/-! ## The form of canonical texts -/

def upperHexChars : List Char :=
  "0123456789ABCDEF".toList

/-- A canonical text: nothing, zero, or upper-case digits without a zero in front. -/
inductive IsCanonicalHex : String → Prop where
  | empty : IsCanonicalHex ""
  | zero : IsCanonicalHex "0x0"
  | number {d : Char} {ds : List Char} : d ≠ '0' → d :: ds ⊆ upperHexChars →
      IsCanonicalHex (String.ofList ('0' :: 'x' :: d :: ds))

theorem digitChar_mem_upperHexChars {d : Nat} (h : d < 16) : digitChar d ∈ upperHexChars := by
  have hall : ∀ d : Fin 16, digitChar d ∈ upperHexChars := by decide
  exact hall ⟨d, h⟩

theorem isCanonicalHex_hexText (n : Nat) : IsCanonicalHex (hexText n) := by
  by_cases hn : n = 0
  · subst hn
    rw [hexText_zero]
    exact .zero
  · have hlt : ∀ d ∈ digits 16 n, d < 16 := fun d hd => lt_of_mem_digits (by decide) hd
    have hhead := head?_digits_ne_zero (show 2 ≤ 16 by decide) hn
    rw [hexText, numeral]
    cases hds : digits 16 n with
    | nil => exact absurd hds (digits_ne_nil 16 n)
    | cons d ds =>
      rw [hds] at hlt hhead
      refine .number (fun hzero => hhead ?_) fun c hc => ?_
      · rw [List.head?_cons, (digitChar_eq_zero_iff (hlt d List.mem_cons_self)).1 hzero]
      · obtain ⟨d', hd', rfl⟩ := List.mem_map.1 (show c ∈ (d :: ds).map digitChar from hc)
        exact digitChar_mem_upperHexChars (hlt d' hd')

theorem isCanonicalHex_canonicalHex (s : String) : IsCanonicalHex (canonicalHex s) := by
  rcases canonicalHex_eq s with h | ⟨n, h⟩
  · rw [h]
    exact .empty
  · rw [h]
    exact isCanonicalHex_hexText n

/-! ## Numbers of digits -/

/-- The digits in both cases. -/
def hexChars : List Char :=
  "0123456789ABCDEFabcdef".toList

/-- The value of a hexadecimal digit in either case. -/
def hexValue (c : Char) : Nat :=
  upperHexChars.idxOf c.toUpper

/-- The number that digits denote, of any length. -/
def hexNumber (ds : List Char) : Nat :=
  ds.foldl (fun n c => 16 * n + hexValue c) 0

theorem digit?_of_mem_hexChars {c : Char} (h : c ∈ hexChars) : digit? 16 c = some (hexValue c) := by
  have hall : hexChars.all fun c => digit? 16 c = some (hexValue c) := by decide
  simpa using List.all_eq_true.1 hall c h

theorem hexValue_lt_of_mem_hexChars {c : Char} (h : c ∈ hexChars) : hexValue c < 16 := by
  have hall : hexChars.all fun c => hexValue c < 16 := by decide
  simpa using List.all_eq_true.1 hall c h

theorem upperForm_of_mem_hexChars {c : Char} (h : c ∈ hexChars) :
    upperForm c = [digitChar (hexValue c)] := by
  have hall : hexChars.all fun c => upperForm c = [digitChar (hexValue c)] := by decide
  simpa using List.all_eq_true.1 hall c h

theorem isBlank_of_mem_hexChars {c : Char} (h : c ∈ hexChars) : isBlank c = false := by
  have hall : hexChars.all fun c => !isBlank c := by decide
  simpa using List.all_eq_true.1 hall c h

variable {ds : List Char}

theorem lt_of_mem_map_hexValue (h : ds ⊆ hexChars) : ∀ d ∈ ds.map hexValue, d < 16 := by
  intro d hd
  obtain ⟨c, hc, rfl⟩ := List.mem_map.1 hd
  exact hexValue_lt_of_mem_hexChars (h hc)

theorem leadingDigits_of_subset_hexChars (h : ds ⊆ hexChars) :
    leadingDigits 16 ds = ds.map hexValue := by
  induction ds with
  | nil => rfl
  | cons c ds ih =>
    obtain ⟨hc, hds⟩ := List.cons_subset.1 h
    simp only [leadingDigits, digit?_of_mem_hexChars hc, ih hds, List.map_cons]

theorem toUpper_of_subset_hexChars (h : ds ⊆ hexChars) :
    toUpper ds = (ds.map hexValue).map digitChar := by
  induction ds with
  | nil => rfl
  | cons c ds ih =>
    obtain ⟨hc, hds⟩ := List.cons_subset.1 h
    rw [toUpper] at ih ⊢
    rw [List.flatMap_cons, upperForm_of_mem_hexChars hc, ih hds]
    rfl

theorem ofDigits_map_hexValue (ds : List Char) : ofDigits 16 (ds.map hexValue) = hexNumber ds := by
  simp only [ofDigits, hexNumber, List.foldl_map, Nat.mul_comm]

/-- Zeros in front make no difference. -/
theorem ofDigits_dropWhile_zero (base : Nat) (ds : List Nat) :
    ofDigits base (ds.dropWhile (· = 0)) = ofDigits base ds := by
  induction ds with
  | nil => rfl
  | cons d ds ih =>
    by_cases hzero : d = 0
    · subst hzero
      rw [List.dropWhile_cons_of_pos (by simp), ih]
      simp [ofDigits]
    · rw [List.dropWhile_cons_of_neg (by simpa using hzero)]

theorem leadingNumber?_of_subset_hexChars (hne : ds ≠ []) (h : ds ⊆ hexChars) :
    leadingNumber? 16 ds = some (hexNumber ds) := by
  rw [leadingNumber?, leadingDigits_of_subset_hexChars h]
  split
  · rename_i hnil
    exact absurd (List.map_eq_nil_iff.1 hnil) hne
  · rw [ofDigits_map_hexValue]

/-- No digit is taken for the second character of a lead. -/
theorem afterLead?_eq_none {a b : Char} (hds : ds ⊆ hexChars) (hb : b ∉ hexChars) :
    afterLead? a b ds = none := by
  unfold afterLead?
  split
  · rename_i c d s
    have hd : d ≠ b := fun heq => hb (heq ▸ hds (by simp))
    rw [if_neg fun h => hd h.2]
  · rfl

/-- The text of a number, with the digits in upper case. -/
theorem hexText_eq (n : Nat) :
    hexText n = "0x" ++ String.ofList ((Nat.toDigits 16 n).map Char.toUpper) := by
  have hupper : ∀ d : Fin 16, digitChar d = (Nat.digitChar d).toUpper := by decide
  have hdigits : numeral 16 n = (Nat.toDigits 16 n).map Char.toUpper := by
    rw [toDigits_eq_map_digits (by decide), List.map_map, numeral]
    refine List.map_congr_left fun d hd => ?_
    exact hupper ⟨d, lt_of_mem_digits (by decide) hd⟩
  rw [← String.toList_inj, toList_hexText, hdigits]
  simp

theorem hexText_injective {m n : Nat} (h : hexText m = hexText n) : m = n := by
  have hdigits : (digits 16 m).map digitChar = (digits 16 n).map digitChar := by
    simpa [toList_hexText, numeral] using congrArg String.toList h
  have hlt (k : Nat) : ∀ d ∈ digits 16 k, d < 16 := fun d hd => lt_of_mem_digits (by decide) hd
  rw [← ofDigits_digits 16 m, ← leadingDigits_map_digitChar (by decide) (hlt m), hdigits,
    leadingDigits_map_digitChar (by decide) (hlt n), ofDigits_digits]

/-! ## Written numbers -/

/-- A text with digits, the digits in it among blanks and after a lead or none. -/
inductive WritesHex (s : String) (ds : List Char) : Prop where
  | intro (before lead after : List Char) : s.toList = before ++ (lead ++ ds) ++ after →
      before.all isBlank → lead ∈ [[], ['0', 'x'], ['0', 'X']] → ds ≠ [] → ds ⊆ hexChars →
      after.all isBlank → WritesHex s ds

/-- Blanks around a text that has none are trimmed away. -/
theorem trim_around {before middle after : List Char} (hbefore : before.all isBlank)
    (hne : middle ≠ []) (hmiddle : ∀ c ∈ middle, isBlank c = false)
    (hafter : after.all isBlank) : trim (before ++ middle ++ after) = middle := by
  have hleft {s t : List Char} (hs : s ≠ []) (hblank : ∀ c ∈ s, isBlank c = false) :
      (s ++ t).dropWhile isBlank = s ++ t := by
    obtain ⟨c, s, rfl⟩ := List.exists_cons_of_ne_nil hs
    rw [List.cons_append, List.dropWhile_cons_of_neg (by simp [hblank c])]
  have hafter' : ∀ c ∈ after.reverse, isBlank c = true := fun c hc =>
    List.all_eq_true.1 hafter c (List.mem_reverse.1 hc)
  have hmiddle' : ∀ c ∈ middle.reverse, isBlank c = false := fun c hc =>
    hmiddle c (List.mem_reverse.1 hc)
  have hright := hleft (t := []) (List.reverse_ne_nil_iff.2 hne) hmiddle'
  rw [List.append_nil] at hright
  rw [trim, trimLeft, List.append_assoc, List.dropWhile_append_of_pos (List.all_eq_true.1 hbefore),
    hleft hne hmiddle, trimRight, List.reverse_append, List.dropWhile_append_of_pos hafter',
    hright, List.reverse_reverse]

namespace WritesHex

variable {s t : String} {ds es : List Char}

/-- What is left of the text when it is trimmed. -/
theorem exists_lead (h : WritesHex s ds) : ∃ lead ∈ [[], ['0', 'x'], ['0', 'X']],
    ds ≠ [] ∧ ds ⊆ hexChars ∧ trim s.toList = lead ++ ds := by
  obtain ⟨before, lead, after, hs, hbefore, hlead, hne, hds, hafter⟩ := h
  refine ⟨lead, hlead, hne, hds, ?_⟩
  rw [hs]
  refine trim_around hbefore (by simp [hne]) (fun c hc => ?_) hafter
  rcases List.mem_append.1 hc with hc | hc
  · have hall : ∀ lead ∈ [[], ['0', 'x'], ['0', 'X']], lead.all (!isBlank ·) := by decide
    simpa using List.all_eq_true.1 (hall lead hlead) c hc
  · exact isBlank_of_mem_hexChars (hds hc)

theorem readHex?_eq (h : WritesHex s ds) : readHex? s = word64? (hexNumber ds) := by
  obtain ⟨lead, hlead, hne, hds, htrim⟩ := h.exists_lead
  have hbody : (afterHexLead? (lead ++ ds)).getD (lead ++ ds) = ds := by
    simp only [List.mem_cons, List.not_mem_nil, or_false] at hlead
    rcases hlead with rfl | rfl | rfl
    · rw [List.nil_append, afterHexLead?, afterLead?_eq_none hds (by decide),
        afterLead?_eq_none hds (by decide)]
      rfl
    · rfl
    · rfl
  simp only [readHex?, htrim, hbody, leadingNumber?_of_subset_hexChars hne hds]
  rfl

theorem hexDigitsIn_eq (h : WritesHex s ds) :
    hexDigitsIn s.toList = (ds.map hexValue).map digitChar := by
  obtain ⟨lead, hlead, -, hds, htrim⟩ := h.exists_lead
  have hvalue := lt_of_mem_map_hexValue hds
  have hupper : (ds.map hexValue).map digitChar ⊆ hexChars := by
    intro c hc
    obtain ⟨d, hd, rfl⟩ := List.mem_map.1 hc
    exact List.mem_append_left "abcdef".toList (digitChar_mem_upperHexChars (hvalue d hd))
  have hbody : (afterLead? '0' 'X' (toUpper (lead ++ ds))).getD (toUpper (lead ++ ds)) =
      (ds.map hexValue).map digitChar := by
    have happend : toUpper (lead ++ ds) = toUpper lead ++ (ds.map hexValue).map digitChar := by
      rw [← toUpper_of_subset_hexChars hds]
      exact List.flatMap_append
    rw [happend]
    simp only [List.mem_cons, List.not_mem_nil, or_false] at hlead
    rcases hlead with rfl | rfl | rfl
    · change (afterLead? '0' 'X' ((ds.map hexValue).map digitChar)).getD _ = _
      rw [afterLead?_eq_none hupper (by decide)]
      rfl
    · rfl
    · rfl
  simp only [hexDigitsIn, htrim, hbody]
  refine List.filter_eq_self.2 fun c hc => ?_
  rw [isHexDigit, digit?_of_mem_hexChars (hupper hc)]
  rfl

/-- However a number is written, its canonical text is the same. -/
theorem canonicalHex_eq (h : WritesHex s ds) : canonicalHex s = hexText (hexNumber ds) := by
  obtain ⟨-, -, hne, hds, -⟩ := h.exists_lead
  have hvalue := lt_of_mem_map_hexValue hds
  rw [canonicalHex_of_digits (by simpa using hne) hvalue h.hexDigitsIn_eq,
    ofDigits_dropWhile_zero, ofDigits_map_hexValue]

theorem hexEquals_iff (hs : WritesHex s ds) (ht : WritesHex t es) :
    hexEquals s t = true ↔ hexNumber ds = hexNumber es := by
  rw [hexEquals, decide_eq_true_iff, hs.canonicalHex_eq, ht.canonicalHex_eq]
  exact ⟨hexText_injective, fun h => by rw [h]⟩

end WritesHex

/-- Every canonical text has the canonical form and stays as it is. The canonical text of a written
number is the text of the number, of any length, and is read as the text is: as the number when it
fits 64 bits, and not at all when it does not. Written numbers are equal as values just when they
are equal. -/
theorem canonicalHex_of_written :
    (∀ s, IsCanonicalHex (canonicalHex s) ∧ canonicalHex (canonicalHex s) = canonicalHex s) ∧
    (∀ s ds, WritesHex s ds →
      canonicalHex s = "0x" ++ String.ofList ((Nat.toDigits 16 (hexNumber ds)).map Char.toUpper) ∧
      readHex? (canonicalHex s) = readHex? s ∧
      readHex? s =
        if hexNumber ds < 2 ^ 64 then some (UInt64.ofNat (hexNumber ds)) else none) ∧
    ∀ s t ds es, WritesHex s ds → WritesHex t es →
      (hexEquals s t = true ↔ hexNumber ds = hexNumber es) := by
  refine ⟨fun s => ⟨isCanonicalHex_canonicalHex s, canonicalHex_canonicalHex s⟩,
    fun s ds h => ⟨?_, ?_, ?_⟩, fun s t ds es hs ht => hs.hexEquals_iff ht⟩
  · rw [h.canonicalHex_eq, hexText_eq]
  · rw [h.canonicalHex_eq, readHex?_hexText, h.readHex?_eq]
  · exact h.readHex?_eq

/-- A number beyond 64 bits is not read, and yet it is told from its neighbour. -/
theorem canonicalHex_of_written_wide :
    let s := "\t0X0010000000000000000a "
    let t := "10000000000000000B"
    WritesHex s "0010000000000000000a".toList ∧ WritesHex t t.toList ∧
    canonicalHex s = "0x10000000000000000A" ∧ readHex? s = none ∧
    readHex? (canonicalHex s) = none ∧ hexEquals s t = false := by
  intro s t
  obtain ⟨-, hread, hequals⟩ := canonicalHex_of_written
  have hs : WritesHex s "0010000000000000000a".toList :=
    ⟨['\t'], ['0', 'X'], [' '], by decide, by decide, by decide, by decide, by decide,
      by decide⟩
  have ht : WritesHex t t.toList :=
    ⟨[], [], [], by decide, by decide, by decide, by decide, by decide, by decide⟩
  obtain ⟨htext, hsame, hnone⟩ := hread s _ hs
  have hwide : readHex? s = none := hnone.trans (by decide)
  refine ⟨hs, ht, htext.trans (by decide), hwide, hsame.trans hwide, ?_⟩
  rw [Bool.eq_false_iff, ne_eq, hequals s t _ _ hs ht]
  decide

end RegisterImage
