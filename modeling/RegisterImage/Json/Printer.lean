import RegisterImage.Decimal.Shortest
import RegisterImage.Json.Basic

/-!
# Written documents

A document is written on one line without blanks, or with every element and every entry on a
line of its own, indented by two blanks for each level.

## Main definitions

* `Json.compact` — the document on one line.
* `Json.pretty` — the document with one element or entry per line.
-/

namespace RegisterImage

/-- The written form of a character in a string: quotes, backslashes and control characters are
escaped, everything else stands for itself. -/
def escaped (c : Char) : List Char :=
  match c with
  | '"' => ['\\', '"']
  | '\\' => ['\\', '\\']
  | '\x08' => ['\\', 'b']
  | '\x0c' => ['\\', 'f']
  | '\n' => ['\\', 'n']
  | '\r' => ['\\', 'r']
  | '\t' => ['\\', 't']
  | c =>
    if c.toNat < 0x20 then '\\' :: 'u' :: (paddedNumeral 16 4 c.toNat).map Char.toLower
    else [c]

def quoted (s : String) : List Char :=
  '"' :: s.toList.flatMap escaped ++ ['"']

def integerText (n : Int) : List Char :=
  if n < 0 then '-' :: numeral 10 n.natAbs else numeral 10 n.natAbs

namespace Json

/-- A new line at a level of nesting, nothing when everything is on one line. -/
def lineBreak : Option Nat → List Char
  | none => []
  | some level => '\n' :: List.replicate (2 * level) ' '

def colon : Option Nat → List Char
  | none => [':']
  | some _ => [':', ' ']

mutual

def render (level : Option Nat) : Json → List Char
  | null => ['n', 'u', 'l', 'l']
  | bool true => ['t', 'r', 'u', 'e']
  | bool false => ['f', 'a', 'l', 's', 'e']
  | int n => integerText n
  | float x => x.text
  | str s => quoted s
  | arr [] => ['[', ']']
  | arr (x :: xs) =>
    '[' :: renderElements (level.map (· + 1)) (x :: xs) ++ lineBreak level ++ [']']
  | obj [] => ['{', '}']
  | obj (e :: es) =>
    '{' :: renderEntries (level.map (· + 1)) (e :: es) ++ lineBreak level ++ ['}']

def renderElements (level : Option Nat) : List Json → List Char
  | [] => []
  | [x] => lineBreak level ++ render level x
  | x :: y :: xs => lineBreak level ++ render level x ++ ',' :: renderElements level (y :: xs)

def renderEntries (level : Option Nat) : List (String × Json) → List Char
  | [] => []
  | [(k, v)] => lineBreak level ++ quoted k ++ colon level ++ render level v
  | (k, v) :: e :: es =>
    lineBreak level ++ quoted k ++ colon level ++ render level v ++ ',' ::
      renderEntries level (e :: es)

end

def compact (j : Json) : String :=
  String.ofList (render none j)

def pretty (j : Json) : String :=
  String.ofList (render (some 0) j)

end Json

end RegisterImage
