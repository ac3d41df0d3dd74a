import Mathlib
import RegisterImage.DeviceWrite
import RegisterImage.Image.LittleEndian

/-!
# Reading words back

A word that was stored with the lowest byte first is read back, whatever follows it.

## Main definitions

* `toNat_wordOf_cons` — the number of a word, one byte at a time.
* `readLe16?_append`, `readLe32?_append`, `readSized?_append` — stored words are read back.
* `le_sizeLimit_of_readSized?` — what is read fits the bytes that it is read from.
* `padTo_eq_append`, `length_padTo_mod`, `length_padTo_le` — a filled-up byte string.
-/

namespace RegisterImage

/-! ## Words -/

@[simp] theorem wordOf_nil : wordOf [] = 0 := rfl

theorem toNat_wordOf_cons (b : UInt8) (bs : Bytes) :
    (wordOf (b :: bs)).toNat = (wordOf bs).toNat * 256 % 2 ^ 32 + b.toNat := by
  have hb : b.toNat < 2 ^ 8 := b.toNat_lt
  have hshift : (wordOf bs <<< 8).toNat = ((wordOf bs).toNat % 2 ^ 24) <<< 8 := by
    simp [UInt32.toNat_shiftLeft, Nat.shiftLeft_eq]
    omega
  have hmod : (wordOf bs).toNat * 256 % 2 ^ 32 = ((wordOf bs).toNat % 2 ^ 24) <<< 8 := by
    rw [Nat.shiftLeft_eq]
    omega
  change ((wordOf bs <<< 8) ||| b.toUInt32).toNat = _
  rw [UInt32.toNat_or, UInt8.toNat_toUInt32, hshift, hmod, Nat.shiftLeft_add_eq_or_of_lt hb]

theorem toNat_wordOf_lt {bs : Bytes} (h : bs.length ≤ 4) :
    (wordOf bs).toNat < 256 ^ bs.length := by
  induction bs with
  | nil => simp
  | cons b bs ih =>
    have hb : b.toNat < 256 := b.toNat_lt
    have hlt := ih (by simp at h; omega)
    have hle : (wordOf bs).toNat * 256 % 2 ^ 32 ≤ (wordOf bs).toNat * 256 := Nat.mod_le ..
    rw [toNat_wordOf_cons, List.length_cons, Nat.pow_succ]
    omega

theorem wordOf_take_le32 {w : UInt32} {size : UInt8} (hsize : IsWidth size)
    (hw : w.toUInt64 ≤ sizeLimit size) : wordOf ((le32 w).take size.toNat) = w := by
  have hlt := w.toNat_lt
  rw [UInt64.le_iff_toNat_le] at hw
  apply UInt32.toNat_inj.1
  rcases hsize with rfl | rfl | rfl <;>
    simp [le32, toNat_wordOf_cons, sizeLimit, Nat.shiftRight_eq_div_pow] at hw ⊢ <;>
    omega

theorem length_take_le32 {size : UInt8} (h : IsWidth size) (w : UInt32) :
    ((le32 w).take size.toNat).length = size.toNat := by
  rcases h with rfl | rfl | rfl <;> rfl

/-! ## Reading -/

theorem readLe16?_append (w : UInt16) (bs : Bytes) : readLe16? (le16 w ++ bs) = some w := by
  have hlt := w.toNat_lt
  have hw : (wordOf (le16 w)).toUInt16 = w := by
    apply UInt16.toNat_inj.1
    simp [le16, toNat_wordOf_cons, Nat.shiftRight_eq_div_pow]
    omega
  exact congrArg some hw

theorem readLe32?_append (w : UInt32) (bs : Bytes) : readLe32? (le32 w ++ bs) = some w := by
  have hlt := w.toNat_lt
  have hw : wordOf (le32 w) = w := by
    apply UInt32.toNat_inj.1
    simp [le32, toNat_wordOf_cons, Nat.shiftRight_eq_div_pow]
    omega
  exact congrArg some hw

theorem readSized?_append {w : UInt32} {size : UInt8} (hsize : IsWidth size)
    (hw : w.toUInt64 ≤ sizeLimit size) (bs : Bytes) :
    readSized? size.toNat ((le32 w).take size.toNat ++ bs) = some w := by
  have hlen := length_take_le32 hsize w
  have htake : ((le32 w).take size.toNat ++ bs).take size.toNat = (le32 w).take size.toNat :=
    List.take_left' hlen
  rw [readSized?, if_pos (by simp [hlen]), htake, wordOf_take_le32 hsize hw]

/-- Two bytes are enough for a short word. -/
theorem readLe16?_of_le {bs : Bytes} (h : 2 ≤ bs.length) :
    readLe16? bs = some ((readLe16? bs).getD 0) := by
  match bs with
  | _ :: _ :: _ => rfl
  | [] | [_] => simp at h

/-- Four bytes are enough for a word. -/
theorem readLe32?_of_le {bs : Bytes} (h : 4 ≤ bs.length) :
    readLe32? bs = some ((readLe32? bs).getD 0) := by
  match bs with
  | _ :: _ :: _ :: _ :: _ => rfl
  | [] | [_] | [_, _] | [_, _, _] => simp at h

/-- What is read in some bytes fits their number. -/
theorem le_sizeLimit_of_readSized? {size : UInt8} (hsize : IsWidth size) {bs : Bytes}
    {w : UInt32} (h : readSized? size.toNat bs = some w) : w.toUInt64 ≤ sizeLimit size := by
  rw [readSized?] at h
  split at h
  · rename_i hle
    obtain rfl := Option.some.inj h
    have hlength : (bs.take size.toNat).length = size.toNat := List.length_take_of_le hle
    have hfour : size.toNat ≤ 4 := by
      rcases hsize with rfl | rfl | rfl <;> decide
    have hlt := toNat_wordOf_lt (hlength.trans_le hfour)
    rw [hlength] at hlt
    rw [UInt64.le_iff_toNat_le]
    rcases hsize with rfl | rfl | rfl <;> simp [sizeLimit] at hlt ⊢ <;> omega
  · cases h

/-! ## Filling up -/

theorem padTo_eq_append (align : Nat) (fill : UInt8) (bs : Bytes) :
    ∃ k, padTo align fill bs = bs ++ List.replicate k fill :=
  ⟨_, rfl⟩

theorem length_padTo_of_le {align : Nat} (fill : UInt8) {bs : Bytes} (hpos : bs ≠ [])
    (hle : bs.length ≤ align) : (padTo align fill bs).length = align := by
  have hlen : 0 < bs.length := List.length_pos_iff.2 hpos
  simp only [padTo, List.length_append, List.length_replicate]
  rcases Nat.lt_or_eq_of_le hle with hlt | heq
  · rw [Nat.mod_eq_of_lt hlt, Nat.mod_eq_of_lt (by omega)]
    omega
  · simp [heq]

theorem length_padTo_mod {align : Nat} (hpos : 0 < align) (fill : UInt8) (bs : Bytes) :
    (padTo align fill bs).length % align = 0 := by
  have hlt := Nat.mod_lt bs.length hpos
  rw [padTo, List.length_append, List.length_replicate, Nat.add_mod, Nat.mod_mod]
  by_cases hrest : bs.length % align = 0
  · simp [hrest]
  · rw [Nat.mod_eq_of_lt (a := align - bs.length % align) (by omega), Nat.add_sub_cancel' hlt.le,
      Nat.mod_self]

/-- What fits whole units still fits them when it is filled up. -/
theorem length_padTo_le {align : Nat} (hpos : 0 < align) (fill : UInt8) {bs : Bytes} {n : Nat}
    (hn : align ∣ n) (hle : bs.length ≤ n) : (padTo align fill bs).length ≤ n := by
  have hlt := Nat.mod_lt (align - bs.length % align) hpos
  have hwhole := Nat.dvd_of_mod_eq_zero (length_padTo_mod hpos fill bs)
  refine Nat.le_of_lt_add_of_dvd ?_ hwhole hn
  rw [padTo, List.length_append, List.length_replicate]
  omega

end RegisterImage
