/-!
# Upper case

Upper-case forms in the Latin alphabet. A few characters outside ASCII have upper-case
forms that contain ASCII letters; the ligatures among them even have several.

## Main definitions

* `upperForm` — the upper-case form of one character.
* `toUpper` — the upper-case form of a text.
-/

namespace RegisterImage

/-- The characters outside ASCII whose upper-case form contains an ASCII letter. -/
def upperExceptions : List (Char × String) :=
  [('\u00DF', "SS"), ('\u0131', "I"), ('\u0149', "\u02BCN"), ('\u017F', "S"),
    ('\u01F0', "J\u030C"), ('\u1E96', "H\u0331"), ('\u1E97', "T\u0308"), ('\u1E98', "W\u030A"),
    ('\u1E99', "Y\u030A"), ('\u1E9A', "A\u02BE"), ('\uFB00', "FF"), ('\uFB01', "FI"),
    ('\uFB02', "FL"), ('\uFB03', "FFI"), ('\uFB04', "FFL"), ('\uFB05', "ST"), ('\uFB06', "ST")]

/-- The upper-case form of a character, as far as ASCII goes: a character whose form has no
ASCII letter stands for its form. -/
def upperForm (c : Char) : List Char :=
  if c.toNat < 0x80 then [c.toUpper]
  else match upperExceptions.lookup c with
    | some form => form.toList
    | none => [c]

def toUpper (s : List Char) : List Char :=
  s.flatMap upperForm

end RegisterImage
