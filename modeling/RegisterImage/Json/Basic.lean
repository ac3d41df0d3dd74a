import RegisterImage.Decimal.Binary64

/-!
# Documents

Documents are trees of JSON values. The entries of an object keep their order, an integer is
not a floating-point number, and a key occurs once.

## Main definitions

* `Json` — a document.
* `Entries` — the entries of an object, with `find?`, `insert` and `remove`.
* `Json.get?`, `Json.set` — an entry of a document that is an object.
* `Json.nodes` — the elements of an array entry, none when there is no such array.
-/

namespace RegisterImage

inductive Json where
  | null
  | bool (b : Bool)
  | int (n : Int)
  | float (x : Binary64)
  | str (s : String)
  | arr (elements : List Json)
  | obj (entries : List (String × Json))
  deriving Repr, Inhabited

abbrev Entries := List (String × Json)

/-! ## Entries -/

namespace Entries

def find? (es : Entries) (key : String) : Option Json :=
  es.lookup key

def contains (es : Entries) (key : String) : Bool :=
  (es.find? key).isSome

/-- A new value for a key stays where the key is; a new key comes last. -/
def insert (key : String) (value : Json) : Entries → Entries
  | [] => [(key, value)]
  | e :: es => if e.1 = key then (key, value) :: es else e :: insert key value es

/-- The last entry takes the place of the removed one. -/
def remove (es : Entries) (key : String) : Entries :=
  match es.getLast? with
  | none => []
  | some last =>
    if last.1 = key then es.dropLast
    else if es.contains key then es.dropLast.map fun e => if e.1 = key then last else e
    else es

/-- Entries in written order, the last value of a repeated key at its first position. -/
def ofWritten (es : Entries) : Entries :=
  es.foldl (fun acc e => insert e.1 e.2 acc) []

/-- The value of the first of `keys` that is present. -/
def first? (es : Entries) (keys : List String) : Option Json :=
  keys.findSome? es.find?

@[simp] theorem find?_nil (k : String) : find? [] k = none := rfl

@[simp] theorem find?_cons (key : String) (value : Json) (es : Entries) (k : String) :
    find? ((key, value) :: es) k = if k = key then some value else find? es k := by
  by_cases h : k = key
  · simp [find?, h]
  · simp [find?, List.lookup_cons, beq_false_of_ne h, h]

@[simp] theorem find?_insert (key : String) (value : Json) (es : Entries) (k : String) :
    find? (insert key value es) k = if k = key then some value else find? es k := by
  induction es with
  | nil => simp [insert]
  | cons e es ih =>
    obtain ⟨k', v⟩ := e
    by_cases h : k' = key
    · by_cases hk : k = key <;> simp [insert, h, hk]
    · by_cases hk : k = k' <;> simp_all [insert]

end Entries

/-! ## Documents -/

namespace Json

def entries? : Json → Option Entries
  | obj es => some es
  | _ => none

def isObject (j : Json) : Bool :=
  j.entries?.isSome

def elements? : Json → Option (List Json)
  | arr xs => some xs
  | _ => none

def string? : Json → Option String
  | str s => some s
  | _ => none

/-- The entry of an object; none for any other document. -/
def get? (j : Json) (key : String) : Option Json :=
  j.entries?.bind (·.find? key)

def first? (j : Json) (keys : List String) : Option Json :=
  keys.findSome? j.get?

/-- An object with a new value for a key; any other document stays as it is. -/
def set (j : Json) (key : String) (value : Json) : Json :=
  match j with
  | obj es => obj (Entries.insert key value es)
  | j => j

/-- The array under a key. -/
def array? (j : Json) (key : String) : Option (List Json) :=
  (j.get? key).bind elements?

/-- The elements of the array under a key; none when there is no such array. -/
def nodes (j : Json) (key : String) : List Json :=
  (j.array? key).getD []

theorem sizeOf_lt_of_lookup {es : Entries} {key : String} {v : Json}
    (h : es.lookup key = some v) : sizeOf v < sizeOf (obj es) := by
  induction es with
  | nil => cases h
  | cons e es ih =>
    obtain ⟨k, w⟩ := e
    rw [List.lookup_cons] at h
    split at h
    · obtain rfl := Option.some.inj h
      simp
      omega
    · have := ih h
      simp at this ⊢
      omega

theorem sizeOf_lt_of_get? {j v : Json} {key : String} (h : j.get? key = some v) :
    sizeOf v < sizeOf j := by
  cases j with
  | obj es => exact sizeOf_lt_of_lookup h
  | _ => cases h

theorem sizeOf_lt_of_mem_nodes {j x : Json} {key : String} (h : x ∈ j.nodes key) :
    sizeOf x < sizeOf j := by
  unfold nodes array? at h
  cases hg : j.get? key with
  | none => simp [hg] at h
  | some v =>
    have hv := sizeOf_lt_of_get? hg
    cases v with
    | arr xs =>
      simp [hg, elements?] at h
      have := List.sizeOf_lt_of_mem h
      simp at hv
      omega
    | _ => simp [hg, elements?] at h

end Json

end RegisterImage
