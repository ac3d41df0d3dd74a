/-!
# Blank characters and trimming

Text in register documents is trimmed of blanks on both sides before it is read.
A blank is a character with the Unicode property White_Space.

## Main definitions

* `isBlank` — the property White_Space.
* `trim` — a character list without the blanks at its two ends.
-/

namespace RegisterImage

/-- The characters with the Unicode property White_Space, as ranges of code points. -/
def blankRanges : List (Nat × Nat) :=
  [(0x09, 0x0D), (0x20, 0x20), (0x85, 0x85), (0xA0, 0xA0), (0x1680, 0x1680),
    (0x2000, 0x200A), (0x2028, 0x2029), (0x202F, 0x202F), (0x205F, 0x205F), (0x3000, 0x3000)]

def isBlank (c : Char) : Bool :=
  blankRanges.any fun (lo, hi) => lo ≤ c.toNat && c.toNat ≤ hi

def trimLeft (s : List Char) : List Char :=
  s.dropWhile isBlank

def trimRight (s : List Char) : List Char :=
  (s.reverse.dropWhile isBlank).reverse

def trim (s : List Char) : List Char :=
  trimRight (trimLeft s)

/-- Whether nothing but blanks is left. -/
def allBlank (s : List Char) : Bool :=
  (trim s).isEmpty

end RegisterImage
