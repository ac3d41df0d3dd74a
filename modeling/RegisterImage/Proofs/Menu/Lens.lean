import RegisterImage.Proofs.Menu.Spans
import RegisterImage.Proofs.Text.Numeral

/-!
# Spans as lenses

To read a span and to insert into it are the two sides of a lens on words. What is inserted is what
is read, cut to the bits of the span, and spans that have no bit in common know nothing of each
other. A span between two bits is the same from either end, also when it is written out.

## Main definitions

* `IsLens` — the laws of reading and inserting.
* `BitSpan.insert_comm`, `BitSpan.extract_insert_of_disjoint` — spans without a common bit.
* `BitSpan.limit_eq` — the largest number of a span in the arithmetic of words.
* `BitSpan.ofText?_decimalText` — the span between two bits that are written out.
* `BitSpan.isLens` — the laws together.
-/

namespace RegisterImage

/-- The laws of a lens on words. Of a number that is put, the bits of the limit are kept. -/
structure IsLens (get : UInt64 → UInt64) (put : UInt64 → UInt64 → UInt64) (limit : UInt64) :
    Prop where
  get_put : ∀ base field, get (put base field) = field &&& limit
  put_get : ∀ base, put base (get base) = base
  put_put : ∀ base field field', put (put base field) field' = put base field'

namespace BitSpan

variable (r : BitSpan)

/-! ## Reading and inserting -/

theorem testBit_limit (i : Nat) : r.limit.toNat.testBit i = decide (i < r.hi + 1 - r.lo) := by
  rw [toNat_limit, Nat.testBit_two_pow_sub_one, width, Nat.sub_add_comm r.lo_le_hi]

theorem testBit_extract (value : UInt64) (i : Nat) : (r.extract value).toNat.testBit i =
    (decide (i < r.hi + 1 - r.lo) && value.toNat.testBit (r.lo + i)) := by
  rw [toNat_extract, testBit_numberAt]

theorem extract_insert (base field : UInt64) :
    r.extract (r.insert base field) = field &&& r.limit := by
  refine word_eq_of_testBit_eq fun i _ => ?_
  rw [testBit_extract, UInt64.toNat_and, Nat.testBit_and, testBit_limit]
  -- Above the span both sides are cut. Within it the bit stands inside the word once it is shifted.
  by_cases hi : i < r.hi + 1 - r.lo
  · have hlt : r.lo + i < 64 := by
      have := r.hi_lt
      omega
    grind [testBit_insert]
  · grind

theorem insert_extract (base : UInt64) : r.insert base (r.extract base) = base := by
  refine word_eq_of_testBit_eq fun i hi => ?_
  grind [testBit_insert, testBit_extract]

theorem insert_insert (base field field' : UInt64) :
    r.insert (r.insert base field) field' = r.insert base field' := by
  refine word_eq_of_testBit_eq fun i hi => ?_
  grind [testBit_insert]

/-! ## Spans without a common bit -/

section Disjoint

variable {r} {q : BitSpan} (h : r.hi < q.lo ∨ q.hi < r.lo)
include h

theorem insert_comm (base field field' : UInt64) :
    r.insert (q.insert base field') field = q.insert (r.insert base field) field' := by
  refine word_eq_of_testBit_eq fun i hi => ?_
  grind [testBit_insert]

theorem extract_insert_of_disjoint (base field : UInt64) :
    r.extract (q.insert base field) = r.extract base := by
  refine word_eq_of_testBit_eq fun i _ => ?_
  rw [testBit_extract, testBit_extract]
  by_cases hi : i < r.hi + 1 - r.lo
  · rw [testBit_insert_outside q base field _ (by omega)]
  · grind

end Disjoint

/-! ## Shifts -/

/-- The number one is shifted only when the span is not the whole word. -/
theorem limit_eq : r.limit =
    if r.width < 64 then (1 <<< UInt64.ofNat r.width) - 1 else 0xFFFFFFFFFFFFFFFF := by
  rw [← UInt64.toNat_inj, toNat_limit]
  split
  · rename_i hlt
    have hwidth : (UInt64.ofNat r.width).toNat = r.width :=
      UInt64.toNat_ofNat_of_lt' (hlt.trans (by decide))
    have hpow : ((1 : UInt64) <<< UInt64.ofNat r.width).toNat = 2 ^ r.width := by
      rw [UInt64.toNat_shiftLeft, hwidth, Nat.mod_eq_of_lt hlt, Nat.shiftLeft_eq, UInt64.toNat_one,
        Nat.one_mul, Nat.mod_eq_of_lt (Nat.pow_lt_pow_right (by decide) hlt)]
    rw [UInt64.toNat_sub_of_le _ _ (UInt64.le_iff_toNat_le.2 (hpow ▸ Nat.one_le_two_pow)), hpow]
    rfl
  · rename_i hge
    have hwidth : r.width = 64 := by
      have := r.hi_lt
      rw [width] at hge ⊢
      omega
    rw [hwidth]
    rfl

/-! ## Bounds -/

variable {r}

theorem ofBounds?_eq_some_iff {a b : Nat} :
    ofBounds? a b = some r ↔ r.lo = min a b ∧ r.hi = max a b := by
  unfold ofBounds?
  constructor
  · intro h
    split at h
    · obtain rfl := Option.some.inj h
      exact ⟨rfl, rfl⟩
    · cases h
  · rintro ⟨hlo, hhi⟩
    rw [dif_pos (hhi ▸ r.hi_lt)]
    cases r
    cases hlo
    cases hhi
    rfl

theorem ofBounds?_comm (a b : Nat) : ofBounds? a b = ofBounds? b a := by
  simp only [ofBounds?, max_comm a b, min_comm a b]

/-! ## Written bounds -/

theorem exists_numeral_eq_cons (n : Nat) :
    ∃ c s, numeral 10 n = c :: s ∧ isDigit c = true ∧ ∀ c' ∈ s, isDigit c' = true := by
  have hdigits : ∀ c ∈ numeral 10 n, isDigit c = true := by
    intro c hc
    obtain ⟨d, hd, rfl⟩ := List.mem_map.1 hc
    rw [isDigit, digit?_digitChar (by decide) (lt_of_mem_digits (by decide) hd)]
    rfl
  have hne : numeral 10 n ≠ [] := fun hnil => digits_ne_nil 10 n (List.map_eq_nil_iff.1 hnil)
  obtain ⟨c, s, hcons⟩ := List.exists_cons_of_ne_nil hne
  rw [hcons] at hdigits
  exact ⟨c, s, hcons, List.forall_mem_cons.1 hdigits⟩

/-- A numeral is one run of digits, and what follows it is cut into runs of its own. -/
theorem digitRuns_numeral (n : Nat) {rest : List Char}
    (hrest : ∀ c ∈ rest.head?, isDigit c = false) :
    digitRuns (numeral 10 n ++ rest) = (n, rest.takeWhile (!isDigit ·)) :: digitRuns rest := by
  have hnumber : ofDigits 10 (leadingDigits 10 (numeral 10 n)) = n := by
    have hlt : ∀ d ∈ digits 10 n, d < 10 := fun d hd => lt_of_mem_digits (by decide) hd
    rw [numeral, leadingDigits_map_digitChar (by decide) hlt, ofDigits_digits]
  have hsplit : rest.takeWhile isDigit = [] ∧ rest.dropWhile isDigit = rest := by
    cases rest with
    | nil => exact ⟨rfl, rfl⟩
    | cons c rest => simp [hrest c rfl]
  obtain ⟨c, s, hnumeral, hc, hs⟩ := exists_numeral_eq_cons n
  rw [hnumeral] at hnumber ⊢
  rw [List.cons_append, digitRuns, if_pos hc, ← List.cons_append,
    List.takeWhile_append_of_pos (List.forall_mem_cons.2 ⟨hc, hs⟩),
    List.dropWhile_append_of_pos hs, hsplit.1, hsplit.2, List.append_nil]
  dsimp only
  rw [hnumber]

theorem ofText?_decimalText (a b : Nat) :
    ofText? (decimalText a ++ ":" ++ decimalText b) = ofBounds? a b := by
  have hcolon : isDigit ':' = false := by decide
  have hgap : (':' :: numeral 10 b).takeWhile (!isDigit ·) = [':'] := by
    obtain ⟨c, s, hnumeral, hc, -⟩ := exists_numeral_eq_cons b
    simp [hnumeral, hcolon, hc]
  have hlast : digitRuns (numeral 10 b) = [(b, [])] := by
    simpa [digitRuns] using @digitRuns_numeral b [] (by simp)
  have hruns : digitRuns (decimalText a ++ ":" ++ decimalText b).toList =
      [(a, [':']), (b, [])] := by
    have htext : (decimalText a ++ ":" ++ decimalText b).toList =
        numeral 10 a ++ ':' :: numeral 10 b := by simp [decimalText]
    rw [htext, digitRuns_numeral a (by simpa using hcolon), hgap, digitRuns,
      if_neg (by simp [hcolon]), hlast]
  unfold ofText?
  rw [hruns]
  rfl

/-! ## Laws of spans -/

/-- The number between the bits of a span is read, and replaced without touching any other bit. What
is inserted is read again without the bits that do not fit, a value stays as it is when what was
read from it is inserted, and of two insertions the second one counts. Spans without a common bit
are read and replaced apart from each other. No shift reaches the width of a word, and a span
between two bits does not depend on which one is named first. -/
theorem isLens (r : BitSpan) :
    IsLens r.extract r.insert r.limit ∧
    (∀ base field i, ¬(r.lo ≤ i ∧ i ≤ r.hi) →
      (r.insert base field).toNat.testBit i = base.toNat.testBit i) ∧
    (∀ base, (r.extract base).toNat = numberAt r.lo r.hi base ∧ r.extract base ≤ r.limit) ∧
    (∀ q : BitSpan, r.hi < q.lo ∨ q.hi < r.lo → ∀ base field field',
      r.insert (q.insert base field') field = q.insert (r.insert base field) field' ∧
      r.extract (q.insert base field') = r.extract base ∧
      q.extract (r.insert base field) = q.extract base) ∧
    (r.shift.toNat = r.lo ∧ r.lo < 64 ∧ r.limit.toNat = 2 ^ r.width - 1 ∧
      r.limit = if r.width < 64 then (1 <<< UInt64.ofNat r.width) - 1 else 0xFFFFFFFFFFFFFFFF) ∧
    ∀ a b, (ofBounds? a b = some r ↔ r.lo = min a b ∧ r.hi = max a b) ∧
      ofBounds? a b = ofBounds? b a ∧
      ofText? (decimalText a ++ ":" ++ decimalText b) = ofBounds? a b := by
  refine ⟨⟨r.extract_insert, r.insert_extract, r.insert_insert⟩, r.testBit_insert_outside,
    fun base => ⟨r.toNat_extract base, r.extract_le_limit base⟩, fun q h base field field' => ?_,
    ⟨r.toNat_shift, r.lo_le_hi.trans_lt r.hi_lt, r.toNat_limit, r.limit_eq⟩, fun a b => ?_⟩
  · exact ⟨insert_comm h base field field', extract_insert_of_disjoint h base field',
      extract_insert_of_disjoint h.symm base field⟩
  · exact ⟨ofBounds?_eq_some_iff, ofBounds?_comm a b, ofText?_decimalText a b⟩

/-- A number that does not fit is cut, and its upper bits reach no neighbour. -/
example : (ofBounds? 7 4).map (·.insert 0xA5 0x13) = some 0x35 := by decide

end BitSpan

end RegisterImage
