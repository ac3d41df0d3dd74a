import RegisterImage.Proofs.Image.Words

/-!
# What the checksums tell apart

The register of the CRC is shifted by a map that is linear for exclusive or and loses nothing. Up
to four bytes enter the register like one word, so two byte strings that differ only within four
consecutive bytes have different CRCs. The 8-bit checksum tells a change of a single byte.

## Main definitions

* `crcShift_xor`, `crcShift_injective` — the shift is linear and injective.
* `foldl_crcByte_eq` — up to four bytes as one word.
* `crc32_ne_of_burst`, `checksum8_ne_of_byte` — the changes that are told.
-/

namespace RegisterImage

/-! ## One bit -/

theorem low_bit_iff (x : UInt32) : x &&& 1 = 1 ↔ x.toNat % 2 = 1 := by
  rw [← UInt32.toNat_inj]
  simp

theorem toNat_crcShift_of_even {x : UInt32} (h : x.toNat % 2 = 0) :
    (crcShift x).toNat = x.toNat / 2 := by
  have hlow : ¬x &&& 1 = 1 := by
    rw [low_bit_iff]
    omega
  simp [crcShift, hlow, Nat.shiftRight_eq_div_pow]

theorem xor_xor_xor_cancel (x y p : UInt32) : (x ^^^ p) ^^^ (y ^^^ p) = x ^^^ y :=
  calc (x ^^^ p) ^^^ (y ^^^ p) = (x ^^^ y) ^^^ (p ^^^ p) := by ac_rfl
    _ = x ^^^ y := by rw [UInt32.xor_self, UInt32.xor_zero]

theorem crcShift_eq (x : UInt32) :
    crcShift x = x >>> 1 ^^^ if x.toNat % 2 = 1 then crcPolynomial else 0 := by
  simp only [crcShift, low_bit_iff]
  split <;> simp

theorem crcShift_xor (x y : UInt32) : crcShift (x ^^^ y) = crcShift x ^^^ crcShift y := by
  have hlow : (x ^^^ y).toNat % 2 = 1 ↔ ¬(x.toNat % 2 = 1 ↔ y.toNat % 2 = 1) := by
    rw [UInt32.toNat_xor, Nat.xor_mod_two_eq_one]
  simp only [crcShift_eq, hlow, UInt32.shiftRight_xor]
  by_cases hx : x.toNat % 2 = 1 <;> by_cases hy : y.toNat % 2 = 1 <;> simp [hx, hy]
  · exact (xor_xor_xor_cancel ..).symm
  · ac_rfl
  · ac_rfl

/-- The polynomial has its highest bit set, which no register has after a shift. -/
theorem eq_zero_of_crcShift_eq_zero {x : UInt32} (h : crcShift x = 0) : x = 0 := by
  have hlt := x.toNat_lt
  have hshift : (x >>> 1).toNat = x.toNat / 2 := by
    simp [Nat.shiftRight_eq_div_pow]
  rw [crcShift_eq, UInt32.xor_eq_zero_iff, ← UInt32.toNat_inj, hshift] at h
  apply UInt32.toNat_inj.1
  split at h
  · have hpoly : crcPolynomial.toNat = 0xEDB88320 := rfl
    omega
  · simp at h ⊢
    omega

theorem crcShift_injective : Function.Injective crcShift := by
  intro x y h
  apply UInt32.xor_eq_zero_iff.1
  apply eq_zero_of_crcShift_eq_zero
  rw [crcShift_xor, h, UInt32.xor_self]

theorem iterate_crcShift_xor (n : Nat) (x y : UInt32) :
    crcShift^[n] (x ^^^ y) = crcShift^[n] x ^^^ crcShift^[n] y := by
  induction n generalizing x y with
  | zero => rfl
  | succ n ih => simp only [Function.iterate_succ_apply, crcShift_xor, ih]

/-- Zeros are shifted out without a trace. -/
theorem toNat_iterate_crcShift {n : Nat} {x : UInt32} {m : Nat} (h : x.toNat = 2 ^ n * m) :
    (crcShift^[n] x).toNat = m := by
  induction n generalizing x with
  | zero => simpa using h
  | succ n ih =>
    have hx : x.toNat = 2 * (2 ^ n * m) := by
      rw [h, Nat.pow_succ']
      ring
    apply ih
    rw [toNat_crcShift_of_even (by omega)]
    omega

/-! ## One byte -/

theorem crcByte_eq (s : UInt32) (b : UInt8) : crcByte s b = crcShift^[8] (s ^^^ b.toUInt32) := rfl

theorem crcByte_injective (b : UInt8) : Function.Injective (crcByte · b) := by
  intro s s' h
  exact (UInt32.xor_left_inj _).1 (crcShift_injective.iterate 8 h)

theorem foldl_crcByte_injective (bs : Bytes) : Function.Injective (bs.foldl crcByte) := by
  induction bs with
  | nil => exact fun _ _ h => h
  | cons b bs ih => exact ih.comp (crcByte_injective b)

/-! ## Up to four bytes -/

theorem toNat_wordOf_cons_of_le {b : UInt8} {bs : Bytes} (h : bs.length ≤ 3) :
    (wordOf (b :: bs)).toNat = (wordOf bs).toNat * 256 + b.toNat := by
  have hlong : bs.length ≤ 4 := by omega
  have hlt := toNat_wordOf_lt hlong
  have hle : 256 ^ bs.length ≤ 256 ^ 3 := Nat.pow_le_pow_right (by omega) h
  rw [toNat_wordOf_cons, Nat.mod_eq_of_lt (by omega)]

theorem wordOf_inj {bs bs' : Bytes} (hlength : bs.length = bs'.length) (hle : bs.length ≤ 4)
    (h : wordOf bs = wordOf bs') : bs = bs' := by
  induction bs generalizing bs' with
  | nil => exact (List.length_eq_zero_iff.1 hlength.symm).symm
  | cons b bs ih =>
    obtain - | ⟨b', bs'⟩ := bs'
    · simp at hlength
    · simp only [List.length_cons, Nat.add_right_cancel_iff] at hlength hle
      have hb : b.toNat < 256 := b.toNat_lt
      have hb' : b'.toNat < 256 := b'.toNat_lt
      have hnat := congrArg UInt32.toNat h
      rw [toNat_wordOf_cons_of_le (by omega), toNat_wordOf_cons_of_le (by omega)] at hnat
      have hfirst : b = b' := UInt8.toNat_inj.1 (by omega)
      have hrest : wordOf bs = wordOf bs' := UInt32.toNat_inj.1 (by omega)
      rw [hfirst, ih hlength (by omega) hrest]

theorem wordOf_cons_eq_xor (b : UInt8) (bs : Bytes) :
    wordOf (b :: bs) = b.toUInt32 ^^^ (wordOf bs <<< 8) := by
  change (wordOf bs <<< 8) ||| b.toUInt32 = _
  apply UInt32.toBitVec_inj.1
  apply BitVec.eq_of_getLsbD_eq
  intro i hi
  have hbyte : ¬i < 8 → b.toBitVec.getLsbD i = false := fun h =>
    BitVec.getLsbD_of_ge _ _ (by omega)
  by_cases h : i < 8 <;> simp [hi, h, hbyte]

/-- Up to four bytes enter the register at once: none of them has been shifted out before the
last one is in. -/
theorem foldl_crcByte_eq {bs : Bytes} (h : bs.length ≤ 4) (s : UInt32) :
    bs.foldl crcByte s = crcShift^[8 * bs.length] (s ^^^ wordOf bs) := by
  induction bs generalizing s with
  | nil => simp
  | cons b bs ih =>
    simp only [List.length_cons] at h
    have hlong : bs.length ≤ 4 := by omega
    have hlt := toNat_wordOf_lt hlong
    have hle : 256 ^ bs.length ≤ 256 ^ 3 := Nat.pow_le_pow_right (by omega) (by omega)
    have hhigh : crcShift^[8] (wordOf bs <<< 8) = wordOf bs := by
      apply UInt32.toNat_inj.1
      apply toNat_iterate_crcShift
      simp [Nat.shiftLeft_eq]
      omega
    rw [List.foldl_cons, ih hlong, List.length_cons, Nat.mul_succ,
      Function.iterate_add_apply, wordOf_cons_eq_xor, ← UInt32.xor_assoc, iterate_crcShift_xor 8,
      hhigh, crcByte_eq]

theorem crc32_ne_of_burst {front w w' : Bytes} (hlength : w.length = w'.length)
    (hle : w.length ≤ 4) (hne : w ≠ w') (rest : Bytes) :
    crc32 (front ++ w ++ rest) ≠ crc32 (front ++ w' ++ rest) := by
  intro h
  simp only [crc32, List.foldl_append, UInt32.not_inj] at h
  have hburst := foldl_crcByte_injective rest h
  have hle' : w'.length ≤ 4 := by omega
  rw [foldl_crcByte_eq hle, foldl_crcByte_eq hle', hlength] at hburst
  have hword := crcShift_injective.iterate _ hburst
  exact hne (wordOf_inj hlength hle ((UInt32.xor_right_inj _).1 hword))

/-! ## Sums -/

theorem foldl_add_toUInt32 (bs : Bytes) (sum : UInt32) :
    bs.foldl (fun sum b => sum + b.toUInt32) sum = sum + byteSum bs := by
  induction bs generalizing sum with
  | nil => simp [byteSum]
  | cons b bs ih =>
    rw [byteSum, List.foldl_cons, List.foldl_cons, ih, ih (0 + b.toUInt32), UInt32.zero_add,
      UInt32.add_assoc]

theorem checksum8_append (bs bs' : Bytes) :
    checksum8 (bs ++ bs') = checksum8 bs + checksum8 bs' := by
  simp only [checksum8, ← UInt32.toUInt8_add]
  rw [byteSum, List.foldl_append, foldl_add_toUInt32]
  rfl

theorem checksum8_ne_of_byte {front : Bytes} {b b' : UInt8} (hne : b ≠ b') (rest : Bytes) :
    checksum8 (front ++ [b] ++ rest) ≠ checksum8 (front ++ [b'] ++ rest) := by
  intro h
  have hbyte : ∀ b : UInt8, checksum8 [b] = b := by
    intro b
    simp [checksum8, byteSum]
  simp only [checksum8_append, hbyte] at h
  exact hne ((UInt8.add_right_inj _).1 ((UInt8.add_left_inj _).1 h))

end RegisterImage
