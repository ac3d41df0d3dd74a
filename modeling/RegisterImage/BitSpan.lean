import RegisterImage.Text.Blank
import RegisterImage.Text.Numeral

/-!
# Bit spans

A run of neighbouring bits of a 64-bit word, given by its lowest and highest bit.

## Main definitions

* `BitSpan.ofBounds?` — the span between two bits, in either order.
* `BitSpan.ofText?` — a span written `hi:lo`, or a single bit.
* `BitSpan.extract`, `BitSpan.insert` — the bits read as a number, and replaced by one.
-/

namespace RegisterImage

structure BitSpan where
  lo : Nat
  hi : Nat
  lo_le_hi : lo ≤ hi
  hi_lt : hi < 64
  deriving DecidableEq, Repr

namespace BitSpan

/-- The span between two bits; none when a bit lies outside the word. -/
def ofBounds? (a b : Nat) : Option BitSpan :=
  if h : max a b < 64 then some ⟨min a b, max a b, by omega, h⟩ else none

def width (r : BitSpan) : Nat :=
  r.hi - r.lo + 1

/-- The largest number that fits the span. -/
def limit (r : BitSpan) : UInt64 :=
  UInt64.ofNat ((1 <<< r.width) - 1)

def shift (r : BitSpan) : UInt64 :=
  UInt64.ofNat r.lo

def mask (r : BitSpan) : UInt64 :=
  r.limit <<< r.shift

def extract (r : BitSpan) (value : UInt64) : UInt64 :=
  (value &&& r.mask) >>> r.shift

/-- Bits of the field that do not fit the span are dropped. -/
def insert (r : BitSpan) (base field : UInt64) : UInt64 :=
  (base &&& ~~~r.mask) ||| ((field <<< r.shift) &&& r.mask)

/-! ## Written spans -/

/-- A text cut into its runs of digits: the number of each run and the text up to the next. -/
def digitRuns : List Char → List (Nat × List Char)
  | [] => []
  | c :: s =>
    if isDigit c then
      let run := (c :: s).takeWhile isDigit
      let rest := s.dropWhile isDigit
      (ofDigits 10 (leadingDigits 10 run), rest.takeWhile (!isDigit ·)) :: digitRuns rest
    else digitRuns s
termination_by s => s.length
decreasing_by
  · have : (s.dropWhile isDigit).length ≤ s.length := (List.dropWhile_sublist _).length_le
    simp
    omega
  · simp

/-- The first two neighbouring numbers with nothing but a colon and blanks between them. -/
def colonPair? : List (Nat × List Char) → Option (Nat × Nat)
  | (a, gap) :: (b, gap') :: runs =>
    if trim gap = [':'] then some (a, b) else colonPair? ((b, gap') :: runs)
  | _ => none

/-- A pair of bits `hi:lo` anywhere in the text, or else the first number in it. -/
def ofText? (s : String) : Option BitSpan :=
  let runs := digitRuns s.toList
  match colonPair? runs with
  | some (a, b) => ofBounds? a b
  | none => runs.head?.bind fun (bit, _) => ofBounds? bit bit

end BitSpan

end RegisterImage
