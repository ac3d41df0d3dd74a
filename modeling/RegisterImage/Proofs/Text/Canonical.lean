import RegisterImage.Proofs.Text.Numeral
import RegisterImage.Register.Basic

/-!
# Canonical texts

A canonical text is empty or the hexadecimal text of a number, of any length. Making a canonical
text canonical again changes nothing, and reading it gives its number back.

## Main definitions

* `canonicalHex_eq` — the canonical texts are those of numbers and the empty one.
* `canonicalHex_hexText` — the text of a number is canonical.
* `readHex?_hexText` — it is read as the number, when that fits 64 bits.
-/

namespace RegisterImage

/-! ## Trimming -/

theorem trim_eq_self {s : List Char} (h : ∀ c ∈ s, isBlank c = false) : trim s = s := by
  have hdrop {s : List Char} (h : ∀ c ∈ s, isBlank c = false) : s.dropWhile isBlank = s := by
    cases s with
    | nil => rfl
    | cons c s => rw [List.dropWhile_cons_of_neg (by simp [h c])]
  rw [trim, trimLeft, hdrop h, trimRight, hdrop fun c hc => h c (List.mem_reverse.1 hc),
    List.reverse_reverse]

/-! ## Texts of numbers -/

theorem isBlank_digitChar {d : Nat} (h : d < 16) : isBlank (digitChar d) = false := by
  have hall : ∀ d : Fin 16, isBlank (digitChar d) = false := by decide
  exact hall ⟨d, h⟩

theorem upperForm_digitChar {d : Nat} (h : d < 16) : upperForm (digitChar d) = [digitChar d] := by
  have hall : ∀ d : Fin 16, upperForm (digitChar d) = [digitChar d] := by decide
  exact hall ⟨d, h⟩

theorem toUpper_map_digitChar {ds : List Nat} (h : ∀ d ∈ ds, d < 16) :
    toUpper (ds.map digitChar) = ds.map digitChar := by
  induction ds with
  | nil => rfl
  | cons d ds ih =>
    obtain ⟨hd, hds⟩ := List.forall_mem_cons.1 h
    rw [toUpper] at ih ⊢
    rw [List.map_cons, List.flatMap_cons, upperForm_digitChar hd, ih hds, List.singleton_append]

theorem toList_hexText (n : Nat) : (hexText n).toList = '0' :: 'x' :: numeral 16 n := by
  rw [hexText, String.toList_ofList]

theorem hexText_zero : hexText 0 = "0x0" := by
  rw [hexText, numeral, digits_of_lt (by decide)]
  rfl

theorem trim_hexText (n : Nat) : trim (hexText n).toList = '0' :: 'x' :: numeral 16 n := by
  rw [toList_hexText]
  refine trim_eq_self fun c hc => ?_
  rcases List.mem_cons.1 hc with rfl | hc
  · decide
  · rcases List.mem_cons.1 hc with rfl | hc
    · decide
    · obtain ⟨d, hd, rfl⟩ := List.mem_map.1 hc
      exact isBlank_digitChar (lt_of_mem_digits (by decide) hd)

theorem readHex?_hexText (n : Nat) : readHex? (hexText n) = word64? n := by
  have hlead : afterHexLead? ('0' :: 'x' :: numeral 16 n) = some (numeral 16 n) := rfl
  rw [readHex?, trim_hexText, hlead, Option.getD_some,
    leadingNumber?_numeral (by decide) (by decide)]
  rfl

theorem hexDigitsIn_hexText (n : Nat) : hexDigitsIn (hexText n).toList = numeral 16 n := by
  have hlt : ∀ d ∈ digits 16 n, d < 16 := fun d hd => lt_of_mem_digits (by decide) hd
  have hupper : toUpper ('0' :: 'x' :: numeral 16 n) = '0' :: 'X' :: numeral 16 n := by
    change upperForm '0' ++ (upperForm 'x' ++ toUpper (numeral 16 n)) = _
    rw [numeral, toUpper_map_digitChar hlt]
    rfl
  have hlead : afterLead? '0' 'X' ('0' :: 'X' :: numeral 16 n) = some (numeral 16 n) := rfl
  simp only [hexDigitsIn, trim_hexText, hupper, hlead, Option.getD_some]
  refine List.filter_eq_self.2 fun c hc => ?_
  obtain ⟨d, hd, rfl⟩ := List.mem_map.1 hc
  simp [isHexDigit, digit?_digitChar (by decide) (hlt d hd)]

/-- The zeros in front of digits, as characters and as values. -/
theorem dropWhile_map_digitChar {ds : List Nat} (h : ∀ d ∈ ds, d < 16) :
    (ds.map digitChar).dropWhile (· = '0') = (ds.dropWhile (· = 0)).map digitChar := by
  induction ds with
  | nil => rfl
  | cons d ds ih =>
    obtain ⟨hd, hds⟩ := List.forall_mem_cons.1 h
    by_cases hzero : d = 0
    · subst hzero
      exact ih hds
    · have hchar : digitChar d ≠ '0' := fun hc => hzero ((digitChar_eq_zero_iff hd).1 hc)
      rw [List.map_cons, List.dropWhile_cons_of_neg (by simpa using hchar),
        List.dropWhile_cons_of_neg (by simpa using hzero), List.map_cons]

/-- What is canonical about digits: their number without zeros in front. -/
theorem canonicalHex_of_digits {s : String} {ds : List Nat} (hne : ds ≠ [])
    (hlt : ∀ d ∈ ds, d < 16) (h : hexDigitsIn s.toList = ds.map digitChar) :
    canonicalHex s = hexText (ofDigits 16 (ds.dropWhile (· = 0))) := by
  rw [canonicalHex, h]
  split
  · rename_i hnil
    exact absurd (List.map_eq_nil_iff.1 hnil) hne
  · rw [dropWhile_map_digitChar hlt]
    cases hds : ds.dropWhile (· = 0) with
    | nil => exact hexText_zero.symm
    | cons d rest =>
      have hmem : ∀ d' ∈ d :: rest, d' < 16 := fun d' hd' =>
        hlt d' ((List.dropWhile_sublist _).subset (hds ▸ hd'))
      have hhead : (d :: rest).head? ≠ some 0 := by
        have := List.head?_dropWhile_not (fun d : Nat => decide (d = 0)) ds
        rw [hds] at this
        simpa using this
      rw [hexText, numeral, digits_ofDigits (by decide) (by simp) hmem hhead]
      rfl

theorem canonicalHex_hexText (n : Nat) : canonicalHex (hexText n) = hexText n := by
  have hlt : ∀ d ∈ digits 16 n, d < 16 := fun d hd => lt_of_mem_digits (by decide) hd
  rw [canonicalHex_of_digits (digits_ne_nil 16 n) hlt (hexDigitsIn_hexText n)]
  by_cases hn : n = 0
  · subst hn
    rw [digits_of_lt (by decide)]
    rfl
  · have hself : (digits 16 n).dropWhile (· = 0) = digits 16 n := by
      have hhead : (digits 16 n).head? ≠ some 0 := head?_digits_ne_zero (by decide) hn
      cases hds : digits 16 n with
      | nil => rfl
      | cons d ds =>
        rw [List.dropWhile_cons_of_neg]
        simpa [hds] using hhead
    rw [hself, ofDigits_digits]

/-! ## All canonical texts -/

theorem toNat_lt_of_isHexDigit {c : Char} (h : isHexDigit c) : c.toNat < 0x80 := by
  by_contra hlarge
  have hgt {d : Char} (hd : d.toNat < 0x80) : ¬c ≤ d := fun hle =>
    absurd (UInt32.le_iff_toNat_le.1 hle) (by change ¬c.toNat ≤ d.toNat; omega)
  have h9 : ¬c ≤ '9' := hgt (by decide)
  have hf : ¬c ≤ 'f' := hgt (by decide)
  have hF : ¬c ≤ 'F' := hgt (by decide)
  simp [isHexDigit, digit?, h9, hf, hF] at h

theorem mem_of_mem_afterLead? {a b c : Char} {s body : List Char}
    (h : afterLead? a b s = some body) (hc : c ∈ body) : c ∈ s := by
  unfold afterLead? at h
  split at h
  · split at h
    · obtain rfl := Option.some.inj h
      simp [hc]
    · cases h
  · cases h

/-- Upper case leaves no small hexadecimal digit. -/
theorem exists_digitChar_of_mem_toUpper {c : Char} {s : List Char} (hc : c ∈ toUpper s)
    (hdigit : isHexDigit c) : ∃ d < 16, digitChar d = c := by
  obtain ⟨x, -, hx⟩ := List.mem_flatMap.1 hc
  rw [upperForm] at hx
  split at hx
  · rename_i hascii
    obtain rfl := List.mem_singleton.1 hx
    have hall : ∀ n : Fin 128, isHexDigit (Char.ofNat n).toUpper →
        ∃ d : Fin 16, digitChar d = (Char.ofNat n).toUpper := by decide
    obtain ⟨d, hd⟩ := hall ⟨x.toNat, hascii⟩ (by simpa using hdigit)
    exact ⟨d, d.2, by simpa using hd⟩
  · rename_i hascii
    split at hx
    · rename_i form hform
      have hall : ∀ e ∈ upperExceptions, e.2.toList.all fun c =>
          !isHexDigit c || (List.range 16).any (digitChar · = c) := by decide
      obtain ⟨es, fs, hsplit, -⟩ := List.lookup_eq_some_iff.1 hform
      have hmem : (x, form) ∈ upperExceptions := by
        rw [hsplit]
        simp
      have hc := List.all_eq_true.1 (hall _ hmem) c hx
      simpa [hdigit] using hc
    · obtain rfl := List.mem_singleton.1 hx
      exact absurd (toNat_lt_of_isHexDigit hdigit) hascii

theorem exists_digits_of_forall {cs : List Char} (h : ∀ c ∈ cs, ∃ d < 16, digitChar d = c) :
    ∃ ds : List Nat, (∀ d ∈ ds, d < 16) ∧ cs = ds.map digitChar := by
  induction cs with
  | nil => exact ⟨[], by simp, rfl⟩
  | cons c cs ih =>
    obtain ⟨hc, hcs⟩ := List.forall_mem_cons.1 h
    obtain ⟨d, hd, rfl⟩ := hc
    obtain ⟨ds, hlt, rfl⟩ := ih hcs
    exact ⟨d :: ds, List.forall_mem_cons.2 ⟨hd, hlt⟩, rfl⟩

theorem exists_digits_of_hexDigitsIn (s : List Char) :
    ∃ ds : List Nat, (∀ d ∈ ds, d < 16) ∧ hexDigitsIn s = ds.map digitChar := by
  have hdigit : ∀ c ∈ hexDigitsIn s, ∃ d < 16, digitChar d = c := by
    intro c hc
    obtain ⟨hc, hhex⟩ := List.mem_filter.1 hc
    refine exists_digitChar_of_mem_toUpper (s := trim s) ?_ hhex
    cases hlead : afterLead? '0' 'X' (toUpper (trim s)) with
    | none => simpa [hlead] using hc
    | some body => exact mem_of_mem_afterLead? hlead (by simpa [hlead] using hc)
  exact exists_digits_of_forall hdigit

/-- Every canonical text is empty or the text of a number, which may have any length. -/
theorem canonicalHex_eq (s : String) : canonicalHex s = "" ∨ ∃ n, canonicalHex s = hexText n := by
  obtain ⟨ds, hlt, hds⟩ := exists_digits_of_hexDigitsIn s.toList
  by_cases hne : ds = []
  · left
    simp [canonicalHex, hds, hne]
  · exact .inr ⟨_, canonicalHex_of_digits hne hlt hds⟩

@[simp] theorem canonicalHex_canonicalHex (s : String) :
    canonicalHex (canonicalHex s) = canonicalHex s := by
  rcases canonicalHex_eq s with h | ⟨n, h⟩
  · rw [h]
    decide
  · rw [h, canonicalHex_hexText]

/-- A canonical text that reads as a number is the text of that number. -/
theorem eq_hexText_of_readHex? {v : String} (hv : canonicalHex v = v) {n : UInt64}
    (h : readHex? v = some n) : v = hexText n.toNat := by
  rcases canonicalHex_eq v with hempty | ⟨m, hm⟩
  · rw [hv] at hempty
    subst hempty
    have hnone : readHex? "" = none := by decide
    rw [hnone] at h
    cases h
  · rw [hv] at hm
    subst hm
    rw [readHex?_hexText] at h
    rw [toNat_of_word64? h]

end RegisterImage
