import RegisterImage.Proofs.Plan.Encodable

/-!
# Writes to addresses

A write that was made for an address and a value is encodable and has both of them again. Of the
address it keeps the 20 bits that a device has.

## Main definitions

* `DeviceWrite.MadeFor` — the write of a value to an address.
* `DeviceWrite.madeFor_of_ofAddress?` — what is made for an address is such a write.
-/

namespace RegisterImage

/-! ## Words -/

theorem sizeLimit_le_of_isWidth {size : UInt8} (h : IsWidth size) :
    sizeLimit size ≤ 0xFFFFFFFF := by
  rcases h with rfl | rfl | rfl <;> decide

/-- A value that fits a device register loses no bit when it is narrowed. -/
theorem toUInt64_toUInt32 {size : UInt8} (hsize : IsWidth size) {v : UInt64}
    (hv : v ≤ sizeLimit size) : v.toUInt32.toUInt64 = v := by
  have hle : v.toNat ≤ 0xFFFFFFFF :=
    UInt64.le_iff_toNat_le.1 (UInt64.le_trans hv (sizeLimit_le_of_isWidth hsize))
  apply UInt64.toNat_inj.1
  rw [UInt32.toNat_toUInt64, UInt64.toNat_toUInt32]
  omega

theorem toNat_segment (a : UInt64) : ((a >>> 16) &&& 0xF).toNat = a.toNat / 65536 % 16 := by
  rw [UInt64.toNat_and, UInt64.toNat_shiftRight]
  change (a.toNat >>> 16) &&& (2 ^ 4 - 1) = _
  rw [Nat.and_two_pow_sub_one_eq_mod, Nat.shiftRight_eq_div_pow]

theorem segment_le (a : UInt64) : ((a >>> 16) &&& 0xF).toUInt8 ≤ 15 := by
  rw [UInt8.le_iff_toNat_le, UInt64.toNat_toUInt8, toNat_segment]
  change _ ≤ 15
  omega

theorem address_segment_offset (a : UInt64) :
    ((((a >>> 16) &&& 0xF).toUInt8 &&& 0xF).toUInt32 <<< 16) |||
      (a &&& 0xFFFF).toUInt16.toUInt32 = (a &&& 0xFFFFF).toUInt32 := by
  have hsegment : (((a >>> 16) &&& 0xF).toUInt8 &&& 0xF).toUInt32.toNat =
      a.toNat / 65536 % 16 := by
    rw [UInt8.toNat_toUInt32, UInt8.toNat_and, UInt64.toNat_toUInt8, toNat_segment]
    change (_ % 2 ^ 8) &&& (2 ^ 4 - 1) = _
    rw [Nat.and_two_pow_sub_one_eq_mod]
    omega
  have hoffset : (a &&& 0xFFFF).toUInt16.toUInt32.toNat = a.toNat % 65536 := by
    have hlow : (a &&& 0xFFFF).toNat = a.toNat % 65536 := by
      rw [UInt64.toNat_and]
      exact Nat.and_two_pow_sub_one_eq_mod a.toNat 16
    rw [UInt16.toNat_toUInt32, UInt64.toNat_toUInt16, hlow]
    omega
  have haddress : (a &&& 0xFFFFF).toNat = a.toNat % 2 ^ 20 := by
    rw [UInt64.toNat_and]
    exact Nat.and_two_pow_sub_one_eq_mod a.toNat 20
  apply UInt32.toNat_inj.1
  rw [UInt32.toNat_or, UInt32.toNat_shiftLeft, hsegment, hoffset, UInt64.toNat_toUInt32,
    haddress]
  -- The two parts have no bit in common, so that joining them is adding them.
  change ((a.toNat / 65536 % 16) <<< 16) % 2 ^ 32 ||| _ = _
  rw [Nat.shiftLeft_eq, Nat.mod_eq_of_lt (by omega), Nat.mul_comm,
    ← Nat.two_pow_add_eq_or_of_lt (by omega)]
  omega

theorem and_eq_self_of_le {a : UInt64} (h : a ≤ 0xFFFFF) : a &&& 0xFFFFF = a := by
  have hle : a.toNat ≤ 0xFFFFF := UInt64.le_iff_toNat_le.1 h
  apply UInt64.toNat_inj.1
  rw [UInt64.toNat_and]
  change a.toNat &&& (2 ^ 20 - 1) = _
  rw [Nat.and_two_pow_sub_one_eq_mod]
  omega

/-! ## Writes -/

namespace DeviceWrite

structure MadeFor (w : DeviceWrite) (address value : UInt64) (size : UInt8) : Prop where
  address_eq : w.address = (address &&& 0xFFFFF).toUInt32
  value_eq : w.value.toUInt64 = value
  size_eq : w.size = size

variable {w : DeviceWrite} {address value : UInt64} {size : UInt8}

theorem encodable_of_ofAddress? (h : ofAddress? address value size = some w) :
    w.Encodable := by
  unfold ofAddress? at h
  split at h
  · rename_i hfits
    obtain rfl := Option.some.inj h
    refine ⟨hfits.1, segment_le address, ?_⟩
    rw [toUInt64_toUInt32 hfits.1 hfits.2]
    exact hfits.2
  · cases h

theorem madeFor_of_ofAddress? (h : ofAddress? address value size = some w) :
    w.MadeFor address value size := by
  unfold ofAddress? at h
  split at h
  · rename_i hfits
    obtain rfl := Option.some.inj h
    exact ⟨address_segment_offset address, toUInt64_toUInt32 hfits.1 hfits.2, rfl⟩
  · cases h

theorem exists_ofAddress? (address : UInt64) (hsize : IsWidth size)
    (hvalue : value ≤ sizeLimit size) : ∃ w, ofAddress? address value size = some w :=
  ⟨_, if_pos ⟨hsize, hvalue⟩⟩

/-- Writes in documents are checked as all others are. -/
theorem encodable_of_ofJson? {j : Json} (h : ofJson? j = some w) : w.Encodable := by
  simp only [ofJson?, Option.bind_eq_bind, Option.bind_eq_some_iff] at h
  obtain ⟨_, _, size, _, address, _, _, _, value, _, hmade⟩ := h
  exact encodable_of_ofAddress? hmade

end DeviceWrite

end RegisterImage
