import Mathlib
import RegisterImage.Image.LittleEndian

/-!
# Checked access

A program that indexes bytes, cuts slices, copies over them and takes differences may slip: the
position may lie past the end, the lengths may differ, and the difference may be below zero. Here
each of these steps tells when it slips, and readers that are put together from them say so too.

## Main definitions

* `Slip`, `Checked` — a step that must not be made, and what a program with such steps gives.
* `byteAt`, `slice`, `minus` — the steps that may slip.
* `range?` — the bytes between two positions when there are so many, which never slips.
* `readLe16At`, `readLe32At`, `readSizedAt` — words at a position.
* `findBytes` — the first place of some bytes.
-/

namespace RegisterImage

inductive Slip where
  | index (i length : Nat)
  | slice (first last length : Nat)
  | difference (a b : Nat)
  | copy (room length : Nat)
  deriving DecidableEq, Repr

abbrev Checked := Except Slip

section Monad

variable {α β : Type}

@[simp] theorem Checked.ok_bind (a : α) (f : α → Checked β) : (Except.ok a >>= f) = f a := rfl

@[simp] theorem Checked.pure_eq_ok (a : α) : (pure a : Checked α) = .ok a := rfl

/-- A search whose steps do not slip does not slip. -/
theorem Checked.findSomeM?_eq_ok {f : α → Checked (Option β)} {g : α → Option β} {as : List α}
    (h : ∀ a ∈ as, f a = .ok (g a)) : as.findSomeM? f = .ok (as.findSome? g) := by
  induction as with
  | nil => rfl
  | cons a as ih =>
    have hrest := ih fun b hb => h b (List.mem_cons_of_mem _ hb)
    simp only [List.findSomeM?, h a List.mem_cons_self, Checked.ok_bind, List.findSome?]
    cases g a with
    | none => exact hrest
    | some b => rfl

end Monad

/-! ## Steps -/

def byteAt (bs : Bytes) (i : Nat) : Checked UInt8 :=
  match bs[i]? with
  | some b => .ok b
  | none => .error (.index i bs.length)

def slice (bs : Bytes) (first last : Nat) : Checked Bytes :=
  if first ≤ last ∧ last ≤ bs.length then .ok ((bs.drop first).take (last - first))
  else .error (.slice first last bs.length)

def minus (a b : Nat) : Checked Nat :=
  if b ≤ a then .ok (a - b) else .error (.difference a b)

def range? (bs : Bytes) (first last : Nat) : Option Bytes :=
  if first ≤ last ∧ last ≤ bs.length then some ((bs.drop first).take (last - first)) else none

theorem byteAt_eq_ok {bs : Bytes} {i : Nat} {b : UInt8} (h : bs[i]? = some b) :
    byteAt bs i = .ok b := by
  simp [byteAt, h]

theorem slice_eq_ok {bs : Bytes} {first last : Nat} (h : first ≤ last) (h' : last ≤ bs.length) :
    slice bs first last = .ok ((bs.drop first).take (last - first)) := by
  simp [slice, h, h']

theorem minus_eq_ok {a b : Nat} (h : b ≤ a) : minus a b = .ok (a - b) := by
  simp [minus, h]

/-- A range of some bytes is there when what remains is long enough. -/
theorem range?_add (bs : Bytes) (first : Nat) {n : Nat} (hn : 0 < n) :
    range? bs first (first + n) =
      if n ≤ (bs.drop first).length then some ((bs.drop first).take n) else none := by
  have hiff : (first ≤ first + n ∧ first + n ≤ bs.length) ↔ n ≤ (bs.drop first).length := by
    rw [List.length_drop]
    omega
  simp only [range?, hiff, Nat.add_sub_cancel_left]

/-! ## Words -/

def readLe16At (bs : Bytes) (offset : Nat) : Checked (Option UInt16) :=
  match range? bs offset (offset + 2) with
  | none => return none
  | some word => do
    let a ← byteAt word 0
    let b ← byteAt word 1
    return some (wordOf [a, b]).toUInt16

def readLe32At (bs : Bytes) (offset : Nat) : Checked (Option UInt32) :=
  match range? bs offset (offset + 4) with
  | none => return none
  | some word => do
    let a ← byteAt word 0
    let b ← byteAt word 1
    let c ← byteAt word 2
    let d ← byteAt word 3
    return some (wordOf [a, b, c, d])

def readSizedAt (bs : Bytes) (offset size : Nat) : Option UInt32 :=
  (range? bs offset (offset + size)).map wordOf

theorem readLe16At_eq (bs : Bytes) (offset : Nat) :
    readLe16At bs offset = .ok (readLe16? (bs.drop offset)) := by
  rw [readLe16At, range?_add bs offset (by omega)]
  rcases bs.drop offset with - | ⟨a, - | ⟨b, rest⟩⟩ <;> rfl

theorem readLe32At_eq (bs : Bytes) (offset : Nat) :
    readLe32At bs offset = .ok (readLe32? (bs.drop offset)) := by
  rw [readLe32At, range?_add bs offset (by omega)]
  rcases bs.drop offset with - | ⟨a, - | ⟨b, - | ⟨c, - | ⟨d, rest⟩⟩⟩⟩ <;> rfl

theorem readSizedAt_eq (bs : Bytes) (offset : Nat) {size : Nat} (hsize : 0 < size) :
    readSizedAt bs offset size = readSized? size (bs.drop offset) := by
  rw [readSizedAt, range?_add bs offset hsize, readSized?]
  split <;> rfl

/-! ## Searching -/

/-- The first place of `needle` in the bytes that begin at a position. -/
def findFrom (needle : Bytes) (position : Nat) : Bytes → Option Nat
  | [] => none
  | b :: bs =>
    if needle.isPrefixOf (b :: bs) then some position else findFrom needle (position + 1) bs

/-- The first place of `needle`, which is not empty, from `start` on. -/
def findBytes (bs needle : Bytes) (start : Nat) : Option Nat :=
  if start ≤ bs.length then findFrom needle start (bs.drop start) else none

theorem isSome_findFrom {needle : Bytes} (hne : needle ≠ []) (position : Nat) (bs : Bytes) :
    (findFrom needle position bs).isSome = occurs needle bs := by
  induction bs generalizing position with
  | nil => simp [findFrom, occurs, hne]
  | cons b bs ih =>
    rw [findFrom, occurs]
    split <;> simp [*]

theorem isSome_findBytes {needle : Bytes} (hne : needle ≠ []) (bs : Bytes) :
    (findBytes bs needle 0).isSome = occurs needle bs := by
  simp [findBytes, isSome_findFrom hne]

theorem le_of_findFrom {needle bs : Bytes} {position found : Nat}
    (h : findFrom needle position bs = some found) :
    position ≤ found ∧ found < position + bs.length := by
  fun_induction findFrom needle position bs with
  | case1 => cases h
  | case2 position b bs => simp_all
  | case3 position b bs _ ih =>
    have hrest := ih h
    rw [List.length_cons]
    omega

theorem le_of_findBytes {bs needle : Bytes} {start found : Nat}
    (h : findBytes bs needle start = some found) : start ≤ found ∧ found < bs.length := by
  unfold findBytes at h
  split at h
  · have hfound := le_of_findFrom h
    rw [List.length_drop] at hfound
    omega
  · cases h

end RegisterImage
