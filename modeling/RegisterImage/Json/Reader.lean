import RegisterImage.Decimal.Binary64
import RegisterImage.Json.Basic
import RegisterImage.Text.Numeral

/-!
# Reading documents

Strict JSON text: no comments, no trailing commas, no lone surrogates, no control characters
in strings, at most 127 arrays and objects inside one another. A reader takes a value off the
front of a text and returns what follows it. Readers with a loop take fuel, of which more than
the length of the text is enough.

An integer literal that fits 64 bits is an integer. Any other number is the rounded number of
its leading digits that fit 64 bits, shifted by a power of ten.

## Main definitions

* `Json.parse?` — a text that holds one document.
* `Json.parseEntries?` — the written entries of a text that holds one object, repeated keys
  included, where the values of some keys are only skimmed.
-/

namespace RegisterImage

/-- What a reader asks of a value. A skimmed value has to be written properly, but its numbers,
surrogates and nesting are not checked. -/
inductive Scrutiny where
  | checked
  | skimmed
  deriving DecidableEq

/-- A reader takes a value off the front of a text. -/
abbrev Reader (α : Type) := List Char → Option (α × List Char)

namespace Json

/-! ## Blanks and words -/

def skipBlank : List Char → List Char
  | c :: s => if c = ' ' ∨ c = '\n' ∨ c = '\t' ∨ c = '\r' then skipBlank s else c :: s
  | [] => []

def readWord (word : String) (value : Json) : Reader Json := fun s =>
  (word.toList.isPrefixOf? s).map (value, ·)

/-! ## Strings -/

def readUnit : Reader Nat
  | a :: b :: c :: d :: s => do
    let a ← digit? 16 a
    let b ← digit? 16 b
    let c ← digit? 16 c
    let d ← digit? 16 d
    some (ofDigits 16 [a, b, c, d], s)
  | _ => none

/-- The character of a `\u` escape, which may take a second escape after it. -/
def readEscapedUnit (scrutiny : Scrutiny) : Reader Char := fun s => do
  let (high, s) ← readUnit s
  let unpaired := if scrutiny = .skimmed then some ('\uFFFD', s) else none
  if 0xD800 ≤ high ∧ high < 0xDC00 then
    match s with
    | '\\' :: 'u' :: s' =>
      match readUnit s' with
      | some (low, s'') =>
        if 0xDC00 ≤ low ∧ low < 0xE000 then
          some (Char.ofNat (0x10000 + (high - 0xD800) * 0x400 + (low - 0xDC00)), s'')
        else unpaired
      | none => unpaired
    | _ => unpaired
  else if 0xDC00 ≤ high ∧ high < 0xE000 then unpaired
  else some (Char.ofNat high, s)

/-- The character of an escape, the backslash already taken. -/
def readEscape (scrutiny : Scrutiny) : Reader Char
  | '"' :: s => some ('"', s)
  | '\\' :: s => some ('\\', s)
  | '/' :: s => some ('/', s)
  | 'b' :: s => some ('\x08', s)
  | 'f' :: s => some ('\x0c', s)
  | 'n' :: s => some ('\n', s)
  | 'r' :: s => some ('\r', s)
  | 't' :: s => some ('\t', s)
  | 'u' :: s => readEscapedUnit scrutiny s
  | _ => none

/-- The characters up to the closing quote, put in front of those in `read`. -/
def readCharacters (scrutiny : Scrutiny) : Nat → List Char → Reader String
  | 0, _, _ => none
  | _ + 1, _, [] => none
  | fuel + 1, read, c :: s =>
    if c = '"' then some (String.ofList read.reverse, s)
    else if c = '\\' then
      match readEscape scrutiny s with
      | some (c, s) => readCharacters scrutiny fuel (c :: read) s
      | none => none
    else if c.toNat < 0x20 then none
    else readCharacters scrutiny fuel (c :: read) s

/-! ## Numbers -/

/-- The digits are appended to `n` for as long as the result fits 64 bits; the others are
returned. -/
def appendDigits (n : Nat) : List Nat → Nat × List Nat
  | [] => (n, [])
  | d :: ds => if n * 10 + d < 0x10000000000000000 then appendDigits (n * 10 + d) ds else (n, d :: ds)

/-- A run of digits. -/
def readDigits : Reader (List Nat) := fun s =>
  match leadingDigits 10 s with
  | [] => none
  | ds => some (ds, s.drop ds.length)

/-- The digits in front of the decimal point; a zero stands alone. -/
def readWhole : Reader (List Nat) := fun s => do
  let (ds, s) ← readDigits s
  if ds.head? = some 0 ∧ 1 < ds.length then none else some (ds, s)

def readFraction : Reader (Option (List Nat))
  | '.' :: s => (readDigits s).map fun (ds, s) => (some ds, s)
  | s => some (none, s)

def readExponent : Reader (Option Int)
  | c :: s =>
    if c = 'e' ∨ c = 'E' then
      match s with
      | '+' :: s => (readDigits s).map fun (ds, s) => (some (ofDigits 10 ds : Int), s)
      | '-' :: s => (readDigits s).map fun (ds, s) => (some (-(ofDigits 10 ds : Int)), s)
      | s => (readDigits s).map fun (ds, s) => (some (ofDigits 10 ds : Int), s)
    else some (none, c :: s)
  | [] => some (none, [])

/-- The number of the digits `whole` and `fraction`, times a power of ten. None when it is too
large. -/
def floatOf? (negative : Bool) (whole fraction : List Nat) (exponent : Int) : Option Json := do
  let (n, dropped) := appendDigits 0 whole
  let (n, unread) := appendDigits n fraction
  let shift : Int := exponent + dropped.length - (fraction.length - unread.length : Nat)
  let m ← roundRatio? n 1
  let m ← m.scale? shift
  some (.float ⟨negative, m⟩)

def numberOf? (negative : Bool) (whole : List Nat) (fraction : Option (List Nat))
    (exponent : Option Int) : Option Json :=
  let n := ofDigits 10 whole
  match fraction, exponent, negative with
  | none, none, false =>
    if n < 0x10000000000000000 then some (.int n) else floatOf? false whole [] 0
  | none, none, true =>
    if 0 < n ∧ n ≤ 0x8000000000000000 then some (.int (-n)) else floatOf? true whole [] 0
  | _, _, _ => floatOf? negative whole (fraction.getD []) (exponent.getD 0)

/-- A number without its sign. -/
def readNumber (scrutiny : Scrutiny) (negative : Bool) : Reader Json := fun s => do
  let (whole, s) ← readWhole s
  let (fraction, s) ← readFraction s
  let (exponent, s) ← readExponent s
  match scrutiny with
  | .checked => (numberOf? negative whole fraction exponent).map (·, s)
  | .skimmed => some (.null, s)

/-! ## Arrays and objects -/

/-- The elements up to the closing bracket, put in front of those in `read`. -/
def readElements {α : Type} (element : Reader α) : Nat → List α → Reader (List α)
  | 0, _, _ => none
  | fuel + 1, read, s =>
    match element (skipBlank s) with
    | none => none
    | some (x, s) =>
      match skipBlank s with
      | ',' :: s => readElements element fuel (x :: read) s
      | ']' :: s => some ((x :: read).reverse, s)
      | _ => none

/-- The elements of an array, the opening bracket already taken. -/
def readArray {α : Type} (element : Reader α) (fuel : Nat) : Reader (List α) := fun s =>
  match skipBlank s with
  | ']' :: s => some ([], s)
  | s => readElements element fuel [] s

/-- A key, a colon and a value. -/
def readEntry {α : Type} (scrutiny : Scrutiny) (value : String → Reader α) (fuel : Nat) :
    Reader (String × α)
  | '"' :: s => do
    let (key, s) ← readCharacters scrutiny fuel [] s
    match skipBlank s with
    | ':' :: s => (value key (skipBlank s)).map fun (v, s) => ((key, v), s)
    | _ => none
  | _ => none

/-- The entries up to the closing brace, put in front of those in `read`. -/
def readEntries {α : Type} (scrutiny : Scrutiny) (value : String → Reader α) :
    Nat → List (String × α) → Reader (List (String × α))
  | 0, _, _ => none
  | fuel + 1, read, s =>
    match readEntry scrutiny value fuel (skipBlank s) with
    | none => none
    | some (e, s) =>
      match skipBlank s with
      | ',' :: s => readEntries scrutiny value fuel (e :: read) s
      | '}' :: s => some ((e :: read).reverse, s)
      | _ => none

/-- The written entries of an object, the opening brace already taken. -/
def readObject {α : Type} (scrutiny : Scrutiny) (value : String → Reader α) (fuel : Nat) :
    Reader (List (String × α)) := fun s =>
  match skipBlank s with
  | '}' :: s => some ([], s)
  | s => readEntries scrutiny value fuel [] s

/-! ## Documents -/

def readScalar (scrutiny : Scrutiny) (fuel : Nat) : Reader Json
  | '"' :: s => (readCharacters scrutiny fuel [] s).map fun (t, s) => (.str t, s)
  | '-' :: s => readNumber scrutiny true s
  | 'n' :: s => readWord "ull" .null s
  | 't' :: s => readWord "rue" (.bool true) s
  | 'f' :: s => readWord "alse" (.bool false) s
  | s => readNumber scrutiny false s

/-- A value in which at most `depth` arrays and objects are inside one another. -/
def readValue (scrutiny : Scrutiny) (fuel : Nat) : Nat → Reader Json
  | depth + 1, '[' :: s =>
    (readArray (readValue scrutiny fuel depth) fuel s).map fun (xs, s) => (.arr xs, s)
  | depth + 1, '{' :: s =>
    (readObject scrutiny (fun _ => readValue scrutiny fuel depth) fuel s).map fun (es, s) =>
      (.obj (Entries.ofWritten es), s)
  | _, s => readScalar scrutiny fuel s

/-- The deepest nesting of a checked document. -/
def maxDepth : Nat := 127

/-- The value that a reader takes off a text with more than its length as fuel, if nothing but
blanks follows it. -/
def whole? {α : Type} (reader : Nat → Reader α) (text : String) : Option α :=
  match reader (text.length + 1) (skipBlank text.toList) with
  | some (x, s) => if (skipBlank s).isEmpty then some x else none
  | none => none

def parse? (text : String) : Option Json :=
  whole? (readValue .checked · maxDepth) text

/-- The entries of a text that holds an object, as they are written. Values of keys outside
`keys` are skimmed. -/
def parseEntries? (keys : List String) (text : String) : Option Entries :=
  whole? (fun
    | fuel, '{' :: s =>
      readObject .checked
        (fun key => if key ∈ keys then readValue .checked fuel (maxDepth - 1)
          else readValue .skimmed fuel fuel) fuel s
    | _, _ => none) text

end Json

end RegisterImage
