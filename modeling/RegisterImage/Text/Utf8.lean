import RegisterImage.Checksum

/-!
# Text in byte strings

## Main definitions

* `decodeUtf8?` — the text that a byte string encodes in UTF-8, if it is well formed.
* `encodeUtf8` — the bytes of a text.
-/

namespace RegisterImage

def decodeUtf8? (bs : Bytes) : Option String :=
  String.fromUTF8? ⟨bs.toArray⟩

def encodeUtf8 (s : String) : Bytes :=
  s.toUTF8.toList

end RegisterImage
