/-!
# Positional numerals

Digits, the numbers that digit strings denote, and the digit strings of numbers.

## Main definitions

* `digit?`, `digitChar` — one digit read and written; letters are upper case when written.
* `leadingNumber?` — the number denoted by the longest run of digits at the start of a text.
* `decimal?`, `signedDecimal?` — a whole text read as a decimal number.
* `numeral` — the digits of a number.
* `word64?` — a number that fits 64 bits.
-/

namespace RegisterImage

/-! ## Reading -/

/-- The value of a digit. Only ASCII digits and letters count. -/
def digit? (base : Nat) (c : Char) : Option Nat :=
  let value? :=
    if '0' ≤ c ∧ c ≤ '9' then some (c.toNat - '0'.toNat)
    else if 'a' ≤ c ∧ c ≤ 'f' then some (c.toNat - 'a'.toNat + 10)
    else if 'A' ≤ c ∧ c ≤ 'F' then some (c.toNat - 'A'.toNat + 10)
    else none
  value?.filter (· < base)

def isHexDigit (c : Char) : Bool :=
  (digit? 16 c).isSome

def isDigit (c : Char) : Bool :=
  (digit? 10 c).isSome

/-- The values of the digits at the start of `s`. -/
def leadingDigits (base : Nat) : List Char → List Nat
  | [] => []
  | c :: s =>
    match digit? base c with
    | some d => d :: leadingDigits base s
    | none => []

/-- The number that digit values denote, the most significant one first. -/
def ofDigits (base : Nat) (ds : List Nat) : Nat :=
  ds.foldl (fun n d => n * base + d) 0

def leadingNumber? (base : Nat) (s : List Char) : Option Nat :=
  match leadingDigits base s with
  | [] => none
  | ds => some (ofDigits base ds)

/-- A text of decimal digits alone. -/
def decimal? (s : List Char) : Option Nat :=
  if s.all isDigit then leadingNumber? 10 s else none

/-- A decimal number with an optional sign in front. -/
def signedDecimal? : List Char → Option Int
  | '-' :: s => (decimal? s).map fun n => -(n : Int)
  | '+' :: s => (decimal? s).map Int.ofNat
  | s => (decimal? s).map Int.ofNat

def word64? (n : Nat) : Option UInt64 :=
  if n < 0x10000000000000000 then some (UInt64.ofNat n) else none

theorem toNat_of_word64? {n : Nat} {w : UInt64} (h : word64? n = some w) : w.toNat = n := by
  unfold word64? at h
  split at h
  · obtain rfl := Option.some.inj h
    exact Nat.mod_eq_of_lt ‹_›
  · cases h

/-- A 64-bit decimal number, with an optional plus sign in front. -/
def unsigned64? (s : List Char) : Option UInt64 :=
  match s with
  | '+' :: s => decimal? s >>= word64?
  | s => decimal? s >>= word64?

/-- A signed 64-bit decimal number. -/
def signed64? (s : List Char) : Option Int :=
  (signedDecimal? s).filter fun n =>
    decide (-0x8000000000000000 ≤ n ∧ n < 0x8000000000000000)

/-! ## Writing -/

/-- The digits of `n`, the most significant one first. Zero has one digit. -/
def digits (base n : Nat) : List Nat :=
  if _h : n < base ∨ base < 2 then [n]
  else digits base (n / base) ++ [n % base]
termination_by n
decreasing_by exact Nat.div_lt_self (by omega) (by omega)

theorem ofDigits_append_singleton (base : Nat) (ds : List Nat) (d : Nat) :
    ofDigits base (ds ++ [d]) = ofDigits base ds * base + d := by
  simp [ofDigits]

theorem ofDigits_digits (base n : Nat) : ofDigits base (digits base n) = n := by
  fun_induction digits base n with
  | case1 n h => simp [ofDigits]
  | case2 n h ih => rw [ofDigits_append_singleton, ih, Nat.mul_comm, Nat.div_add_mod]

/-- A digit as a character; digits from ten on are upper-case letters. -/
def digitChar (d : Nat) : Char :=
  if d < 10 then Char.ofNat ('0'.toNat + d) else Char.ofNat ('A'.toNat + (d - 10))

def numeral (base n : Nat) : List Char :=
  (digits base n).map digitChar

/-- A numeral with zeros in front up to a width. -/
def paddedNumeral (base width n : Nat) : List Char :=
  let ds := numeral base n
  List.replicate (width - ds.length) '0' ++ ds

def decimalText (n : Nat) : String :=
  String.ofList (numeral 10 n)

def hexText (n : Nat) : String :=
  String.ofList ('0' :: 'x' :: numeral 16 n)

end RegisterImage
