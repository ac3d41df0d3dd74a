import Mathlib
import RegisterImage.Text.Numeral

/-!
# Numerals and their numbers

The numeral of a number has no zero in front, and every run of digits without one is the numeral
of its number.

## Main definitions

* `digits_ofDigits` — digits without a zero in front are those of their number.
* `leadingNumber?_numeral` — a numeral is read as its number.
-/

namespace RegisterImage

/-! ## Digits of a number -/

theorem digits_of_lt {base n : Nat} (h : n < base) : digits base n = [n] := by
  rw [digits, dif_pos (.inl h)]

theorem digits_of_ge {base n : Nat} (hbase : 2 ≤ base) (h : base ≤ n) :
    digits base n = digits base (n / base) ++ [n % base] := by
  rw [digits, dif_neg (by omega)]

theorem digits_ne_nil (base n : Nat) : digits base n ≠ [] := by
  rw [digits]
  split <;> simp

theorem lt_of_mem_digits {base n d : Nat} (hbase : 2 ≤ base) (h : d ∈ digits base n) :
    d < base := by
  fun_induction digits base n with
  | case1 n hn =>
    obtain rfl := List.mem_singleton.1 h
    omega
  | case2 n hn ih =>
    rcases List.mem_append.1 h with h | h
    · exact ih h
    · obtain rfl := List.mem_singleton.1 h
      exact Nat.mod_lt _ (by omega)

theorem head?_digits_ne_zero {base n : Nat} (hbase : 2 ≤ base) (hn : n ≠ 0) :
    (digits base n).head? ≠ some 0 := by
  fun_induction digits base n with
  | case1 n _ => simpa using hn
  | case2 n h ih =>
    have hdiv : n / base ≠ 0 := by
      have := Nat.div_pos (show base ≤ n by omega) (by omega)
      omega
    rw [List.head?_append_of_ne_nil _ (digits_ne_nil _ _)]
    exact ih hdiv

theorem ofDigits_ne_zero {base : Nat} {ds : List Nat} (hne : ds ≠ [])
    (hhead : ds.head? ≠ some 0) (hbase : 2 ≤ base) : ofDigits base ds ≠ 0 := by
  induction ds using List.reverseRecOn with
  | nil => exact absurd rfl hne
  | append_singleton ds d ih =>
    rw [ofDigits_append_singleton]
    cases ds with
    | nil => simpa [ofDigits] using hhead
    | cons d' ds =>
      have hpos := ih (by simp) (by simpa using hhead)
      have := Nat.mul_pos (Nat.pos_of_ne_zero hpos) (show 0 < base by omega)
      omega

/-- By induction from the last digit, which is the remainder of the number. -/
theorem digits_ofDigits {base : Nat} (hbase : 2 ≤ base) {ds : List Nat} (hne : ds ≠ [])
    (hlt : ∀ d ∈ ds, d < base) (hhead : ds.head? ≠ some 0) :
    digits base (ofDigits base ds) = ds := by
  induction ds using List.reverseRecOn with
  | nil => exact absurd rfl hne
  | append_singleton ds d ih =>
    have hd : d < base := hlt d (by simp)
    rw [ofDigits_append_singleton]
    cases ds with
    | nil => simpa [ofDigits] using digits_of_lt hd
    | cons d' ds =>
      have hhead' : (d' :: ds).head? ≠ some 0 := by simpa using hhead
      have hpos := ofDigits_ne_zero (by simp) hhead' hbase
      have hge : base ≤ ofDigits base (d' :: ds) * base + d := by
        have := Nat.le_mul_of_pos_left base (Nat.pos_of_ne_zero hpos)
        omega
      have hdiv : (ofDigits base (d' :: ds) * base + d) / base = ofDigits base (d' :: ds) := by
        rw [Nat.mul_comm, Nat.mul_add_div (by omega), Nat.div_eq_of_lt hd, Nat.add_zero]
      have hmod : (ofDigits base (d' :: ds) * base + d) % base = d := by
        rw [Nat.mul_comm, Nat.mul_add_mod, Nat.mod_eq_of_lt hd]
      rw [digits_of_ge hbase hge, hdiv, hmod,
        ih (by simp) (fun d hd => hlt d (List.mem_append_left _ hd)) hhead']

theorem toDigits_eq_map_digits {base : Nat} (hbase : 2 ≤ base) (n : Nat) :
    Nat.toDigits base n = (digits base n).map Nat.digitChar := by
  fun_induction digits base n with
  | case1 n h => rw [Nat.toDigits_of_lt_base (by omega), List.map_singleton]
  | case2 n h ih =>
    have hbase_le : base ≤ n := by omega
    rw [List.map_append, ← ih, Nat.toDigits_of_base_le (by omega) hbase_le, List.map_singleton]

/-! ## Digits as characters -/

theorem digit?_digitChar {base d : Nat} (hbase : base ≤ 16) (h : d < base) :
    digit? base (digitChar d) = some d := by
  have hall : ∀ d : Fin 16, digit? 16 (digitChar d) = some d.1 := by decide
  have hdigit := hall ⟨d, by omega⟩
  simp only [digit?, Option.filter_eq_some_iff] at hdigit ⊢
  exact ⟨hdigit.1, by simpa using h⟩

theorem decimalText_eq_repr (n : Nat) : decimalText n = n.repr := by
  have hall : ∀ d : Fin 10, digitChar d = Nat.digitChar d := by decide
  rw [decimalText, numeral, Nat.repr, toDigits_eq_map_digits (by decide)]
  congr 1
  refine List.map_congr_left fun d hd => ?_
  exact hall ⟨d, lt_of_mem_digits (by decide) hd⟩

theorem digitChar_eq_zero_iff {d : Nat} (h : d < 16) : digitChar d = '0' ↔ d = 0 := by
  have hall : ∀ d : Fin 16, digitChar d = '0' ↔ d.1 = 0 := by decide
  exact hall ⟨d, h⟩

theorem leadingDigits_map_digitChar {base : Nat} (hbase : base ≤ 16) {ds : List Nat}
    (h : ∀ d ∈ ds, d < base) : leadingDigits base (ds.map digitChar) = ds := by
  induction ds with
  | nil => rfl
  | cons d ds ih =>
    obtain ⟨hd, hds⟩ := List.forall_mem_cons.1 h
    simp only [List.map_cons, leadingDigits, digit?_digitChar hbase hd, ih hds]

theorem leadingNumber?_numeral {base : Nat} (hbase : 2 ≤ base) (hbase' : base ≤ 16) (n : Nat) :
    leadingNumber? base (numeral base n) = some n := by
  have hdigits : leadingDigits base (numeral base n) = digits base n :=
    leadingDigits_map_digitChar hbase' fun d hd => lt_of_mem_digits hbase hd
  rw [leadingNumber?, hdigits]
  split
  · rename_i hnil
    exact absurd hnil (digits_ne_nil base n)
  · rw [ofDigits_digits]

end RegisterImage
