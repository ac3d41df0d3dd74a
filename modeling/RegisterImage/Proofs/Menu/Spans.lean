import Mathlib
import RegisterImage.BitSpan

/-!
# Bits of spans

A span read as a number is what stands between its two bits, and replacing it by a number touches
no other bit.

## Main definitions

* `numberAt` — the number between two bits of a value.
* `BitSpan.toNat_limit` — the largest number of a span.
* `BitSpan.toNat_extract`, `BitSpan.testBit_insert` — a span read, and bit by bit replaced.
* `BitSpan.single` — the span of one bit, where a number is inserted by one `and` or `or`.
-/

namespace RegisterImage

/-- The number in the bits of a value from `lo` to `hi`. -/
def numberAt (lo hi : Nat) (value : UInt64) : Nat :=
  value.toNat / 2 ^ lo % 2 ^ (hi + 1 - lo)

theorem testBit_numberAt (lo hi : Nat) (value : UInt64) (i : Nat) :
    (numberAt lo hi value).testBit i =
      (decide (i < hi + 1 - lo) && value.toNat.testBit (lo + i)) := by
  rw [numberAt, Nat.testBit_mod_two_pow, Nat.testBit_div_two_pow, Nat.add_comm i]

theorem numberAt_lt (lo hi : Nat) (value : UInt64) : numberAt lo hi value < 2 ^ (hi + 1 - lo) :=
  Nat.mod_lt _ (Nat.two_pow_pos _)

theorem testBit_word_of_le (value : UInt64) {i : Nat} (h : 64 ≤ i) :
    value.toNat.testBit i = false :=
  Nat.testBit_lt_two_pow (value.toNat_lt.trans_le (Nat.pow_le_pow_right (by decide) h))

/-- Words are their 64 bits. -/
theorem word_eq_of_testBit_eq {a b : UInt64}
    (h : ∀ i < 64, a.toNat.testBit i = b.toNat.testBit i) : a = b := by
  refine UInt64.toNat_inj.1 (Nat.eq_of_testBit_eq fun i => ?_)
  by_cases hi : i < 64
  · exact h i hi
  · rw [testBit_word_of_le a (by omega), testBit_word_of_le b (by omega)]

namespace BitSpan

variable (r : BitSpan)

theorem toNat_limit : r.limit.toNat = 2 ^ r.width - 1 := by
  have hle : 2 ^ r.width ≤ 2 ^ 64 := Nat.pow_le_pow_right (by decide) (by
    have := r.hi_lt
    rw [width]
    omega)
  have hpos : 0 < 2 ^ r.width := Nat.two_pow_pos _
  rw [limit, Nat.shiftLeft_eq, Nat.one_mul, UInt64.toNat_ofNat_of_lt']
  change _ < 2 ^ 64
  omega

theorem le_limit_iff {number : UInt64} :
    number ≤ r.limit ↔ number.toNat < 2 ^ (r.hi + 1 - r.lo) := by
  have hpos : 0 < 2 ^ r.width := Nat.two_pow_pos _
  rw [UInt64.le_iff_toNat_le, toNat_limit, Nat.sub_add_comm r.lo_le_hi, ← width]
  omega

theorem toNat_shift : r.shift.toNat = r.lo := by
  have hlt : r.lo < 64 := r.lo_le_hi.trans_lt r.hi_lt
  rw [shift, UInt64.toNat_ofNat_of_lt']
  exact hlt.trans (by decide)

theorem testBit_shiftLeft_shift (value : UInt64) {i : Nat} (hi : i < 64) :
    (value <<< r.shift).toNat.testBit i = (decide (r.lo ≤ i) && value.toNat.testBit (i - r.lo)) := by
  have hlt : r.lo < 64 := r.lo_le_hi.trans_lt r.hi_lt
  rw [UInt64.toNat_shiftLeft, toNat_shift, Nat.mod_eq_of_lt hlt, Nat.testBit_mod_two_pow,
    Nat.testBit_shiftLeft]
  simp [hi]

theorem testBit_mask {i : Nat} (hi : i < 64) :
    r.mask.toNat.testBit i = decide (r.lo ≤ i ∧ i ≤ r.hi) := by
  rw [mask, testBit_shiftLeft_shift r _ hi, toNat_limit, Nat.testBit_two_pow_sub_one, width,
    Bool.decide_and]
  have hle := r.lo_le_hi
  grind

theorem testBit_not_mask {i : Nat} (hi : i < 64) :
    (~~~r.mask).toNat.testBit i = !decide (r.lo ≤ i ∧ i ≤ r.hi) := by
  rw [← testBit_mask r hi, UInt64.toNat_not, Nat.sub_sub, Nat.add_comm 1]
  exact (Nat.testBit_two_pow_sub_succ r.mask.toNat_lt i).trans (by rw [decide_eq_true hi]; rfl)

/-- Within the span the bits are those of the number, and elsewhere they are as before. -/
theorem testBit_insert (base field : UInt64) {i : Nat} (hi : i < 64) :
    (r.insert base field).toNat.testBit i =
      if r.lo ≤ i ∧ i ≤ r.hi then field.toNat.testBit (i - r.lo) else base.toNat.testBit i := by
  rw [insert, UInt64.toNat_or, UInt64.toNat_and, UInt64.toNat_and, Nat.testBit_or,
    Nat.testBit_and, Nat.testBit_and, testBit_shiftLeft_shift r _ hi, testBit_mask r hi,
    testBit_not_mask r hi]
  by_cases hin : r.lo ≤ i ∧ i ≤ r.hi
  · simp [hin]
  · simp [hin]

theorem testBit_insert_outside (base field : UInt64) (i : Nat) (h : ¬(r.lo ≤ i ∧ i ≤ r.hi)) :
    (r.insert base field).toNat.testBit i = base.toNat.testBit i := by
  by_cases hi : i < 64
  · rw [testBit_insert r base field hi, if_neg h]
  · rw [testBit_word_of_le _ (by omega), testBit_word_of_le _ (by omega)]

theorem toNat_extract (value : UInt64) :
    (r.extract value).toNat = numberAt r.lo r.hi value := by
  have hlt : r.lo < 64 := r.lo_le_hi.trans_lt r.hi_lt
  refine Nat.eq_of_testBit_eq fun i => ?_
  rw [extract, UInt64.toNat_shiftRight, toNat_shift, Nat.mod_eq_of_lt hlt, Nat.testBit_shiftRight,
    UInt64.toNat_and, Nat.testBit_and, testBit_numberAt]
  by_cases hi : r.lo + i < 64
  · rw [testBit_mask r hi, Bool.and_comm]
    have hiff : r.lo ≤ r.lo + i ∧ r.lo + i ≤ r.hi ↔ i < r.hi + 1 - r.lo := by omega
    rw [decide_eq_decide.2 hiff]
  · rw [testBit_word_of_le value (by omega), Bool.false_and, Bool.and_false]

theorem extract_le_limit (value : UInt64) : r.extract value ≤ r.limit := by
  rw [le_limit_iff, toNat_extract]
  exact numberAt_lt ..

variable {r}

/-- A number that fits stands in the span once it is inserted. -/
theorem numberAt_insert (base : UInt64) {field : UInt64} (h : field ≤ r.limit) :
    numberAt r.lo r.hi (r.insert base field) = field.toNat := by
  refine Nat.eq_of_testBit_eq fun i => ?_
  rw [testBit_numberAt]
  by_cases hi : i < r.hi + 1 - r.lo
  · have hlt := r.hi_lt
    rw [testBit_insert r base field (by omega), if_pos (by omega), Nat.add_sub_cancel_left]
    simp [hi]
  · have hlt : field.toNat < 2 ^ i :=
      ((le_limit_iff r).1 h).trans_le (Nat.pow_le_pow_right (by decide) (by omega))
    rw [Nat.testBit_lt_two_pow hlt, decide_eq_false hi, Bool.false_and]

/-- The insertion is the one word with the number in the span and the old bits elsewhere. -/
theorem eq_insert_of_numberAt {base next field : UInt64}
    (houtside : ∀ i, ¬(r.lo ≤ i ∧ i ≤ r.hi) → next.toNat.testBit i = base.toNat.testBit i)
    (hinside : numberAt r.lo r.hi next = field.toNat) : next = r.insert base field := by
  refine word_eq_of_testBit_eq fun i hi => ?_
  rw [testBit_insert r base field hi]
  split
  · rename_i hin
    rw [← hinside, testBit_numberAt, Nat.add_sub_of_le hin.1, decide_eq_true (by omega),
      Bool.true_and]
  · rename_i hout
    exact houtside i hout

/-! ## Single bits -/

/-- The span of one bit. -/
def single (bit : Nat) (h : bit < 64) : BitSpan :=
  ⟨bit, bit, le_rfl, h⟩

variable {bit : Nat} (h : bit < 64)

theorem limit_single : (single bit h).limit = 1 := by
  rw [limit, width, single, Nat.sub_self]
  rfl

theorem mask_single : (single bit h).mask = 1 <<< UInt64.ofNat bit := by
  rw [mask, limit_single]
  rfl

theorem insert_single_zero (base : UInt64) :
    (single bit h).insert base 0 = base &&& ~~~(1 <<< UInt64.ofNat bit) := by
  rw [insert, mask_single, UInt64.zero_shiftLeft, UInt64.zero_and, UInt64.or_zero]

theorem insert_single_one (base : UInt64) :
    (single bit h).insert base 1 = base ||| 1 <<< UInt64.ofNat bit := by
  refine word_eq_of_testBit_eq fun i hi => ?_
  rw [← mask_single h, UInt64.toNat_or, Nat.testBit_or, testBit_mask _ hi, testBit_insert _ _ _ hi]
  by_cases hin : bit ≤ i ∧ i ≤ bit
  · obtain rfl : bit = i := Nat.le_antisymm hin.1 hin.2
    simp [single]
  · simp [single, hin]

end BitSpan

end RegisterImage
