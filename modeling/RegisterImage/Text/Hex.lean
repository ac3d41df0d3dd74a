import RegisterImage.Text.Blank
import RegisterImage.Text.Numeral
import RegisterImage.Text.Upper

/-!
# Quantities in text

Register documents write numbers as decimal text, as hexadecimal text with or without `0x`,
and with stray characters around them. Reading takes what can be read and never fails with
an error. Equality of values is equality of a canonical hexadecimal text, so that numbers of
any length can be compared.

## Main definitions

* `readHex?` — a quantity that is always hexadecimal.
* `readNumber?` — a quantity that is decimal unless something in it says hexadecimal.
* `canonicalHex` — `0x` and upper-case digits without leading zeros, or nothing.
* `hexEquals` — equality of canonical texts.
-/

namespace RegisterImage

/-- The text after a lead of two characters, if `s` starts with it. -/
def afterLead? (a b : Char) : List Char → Option (List Char)
  | c :: d :: s => if c = a ∧ d = b then some s else none
  | _ => none

def afterHexLead? (s : List Char) : Option (List Char) :=
  afterLead? '0' 'x' s <|> afterLead? '0' 'X' s

def readHex? (s : String) : Option UInt64 :=
  let s := trim s.toList
  leadingNumber? 16 ((afterHexLead? s).getD s) >>= word64?

/-- A `0x` in front or a letter from `a` to `f` anywhere selects hexadecimal. -/
def readNumber? (s : String) : Option UInt64 :=
  let s := trim s.toList
  match afterHexLead? s with
  | some body => leadingNumber? 16 body >>= word64?
  | none =>
    let base := if s.any fun c => isHexDigit c && !isDigit c then 16 else 10
    leadingNumber? base s >>= word64?

/-- The upper-case hexadecimal digits in `s`, an `0X` in front left out. -/
def hexDigitsIn (s : List Char) : List Char :=
  let upper := toUpper (trim s)
  ((afterLead? '0' 'X' upper).getD upper).filter isHexDigit

def canonicalHex (s : String) : String :=
  match hexDigitsIn s.toList with
  | [] => ""
  | ds =>
    match ds.dropWhile (· = '0') with
    | [] => "0x0"
    | significant => String.ofList ('0' :: 'x' :: significant)

def hexEquals (a b : String) : Bool :=
  canonicalHex a = canonicalHex b

/-- The largest number of `size` bytes, for sizes up to eight. -/
def sizeLimit (size : UInt8) : UInt64 :=
  UInt64.ofNat ((1 <<< (8 * size.toNat)) - 1)

end RegisterImage
