import RegisterImage.Image.Records
import RegisterImage.Proofs.Image.Words
import RegisterImage.Proofs.Plan.Encodable

/-!
# Reading records back

The record of an encodable write is eight bytes long and is decoded to the write, whatever
follows it. A run of records is decoded to its writes in order.

## Main definitions

* `decodeRecord_encodeRecord` — one record.
* `decodeRecords_flatMap_encodeRecord` — a run of records.
-/

namespace RegisterImage

/-! ## One record -/

theorem toNat_controlByte {w : DeviceWrite} (h : w.Encodable) :
    (controlByte w).toNat = 16 * w.segment.toNat + w.size.toNat := by
  have hsegment : w.segment.toNat ≤ 15 := UInt8.le_iff_toNat_le.1 h.segment_le
  have hsize : w.size.toNat < 2 ^ 4 := by
    rcases h.isWidth with hs | hs | hs <;> rw [hs] <;> decide
  have hlow (n : Nat) : n &&& 15 = n % 16 := Nat.and_two_pow_sub_one_eq_mod n 4
  have hshift : ((w.segment &&& 0xF) <<< 4).toNat = w.segment.toNat <<< 4 := by
    simp [UInt8.toNat_shiftLeft, hlow, Nat.shiftLeft_eq]
    omega
  have hand : (w.size &&& 0xF).toNat = w.size.toNat := by
    simp [hlow]
    omega
  rw [controlByte, UInt8.toNat_or, hshift, hand, ← Nat.shiftLeft_add_eq_or_of_lt hsize,
    Nat.shiftLeft_eq]
  omega

theorem controlByte_and {w : DeviceWrite} (h : w.Encodable) : controlByte w &&& 0xF = w.size := by
  have hsize : w.size.toNat < 16 := by
    rcases h.isWidth with hs | hs | hs <;> rw [hs] <;> decide
  apply UInt8.toNat_inj.1
  rw [UInt8.toNat_and, toNat_controlByte h]
  have hlow := Nat.and_two_pow_sub_one_eq_mod (16 * w.segment.toNat + w.size.toNat) 4
  simp at hlow ⊢
  omega

theorem controlByte_shiftRight {w : DeviceWrite} (h : w.Encodable) :
    controlByte w >>> 4 = w.segment := by
  have hsize : w.size.toNat < 16 := by
    rcases h.isWidth with hs | hs | hs <;> rw [hs] <;> decide
  apply UInt8.toNat_inj.1
  rw [UInt8.toNat_shiftRight, toNat_controlByte h, Nat.shiftRight_eq_div_pow]
  simp
  omega

/-- The fields of a record and the zeros that fill it up. -/
theorem encodeRecord_eq (w : DeviceWrite) :
    ∃ k, encodeRecord w = recordMarker :: controlByte w :: (le16 w.offset ++
      ((le32 w.value).take w.size.toNat ++ List.replicate k 0)) := by
  obtain ⟨k, hk⟩ := padTo_eq_append recordLength 0
    (recordMarker :: controlByte w :: le16 w.offset ++ (le32 w.value).take w.size.toNat)
  exact ⟨k, by rw [encodeRecord, hk]; simp⟩

theorem length_encodeRecord {w : DeviceWrite} (h : IsWidth w.size) :
    (encodeRecord w).length = recordLength := by
  refine length_padTo_of_le 0 (by simp) ?_
  have htake := length_take_le32 h w.value
  simp only [List.cons_append, List.length_cons, List.length_append, length_le16, htake,
    recordLength]
  rcases h with hs | hs | hs <;> rw [hs] <;> decide

theorem decodeRecord_encodeRecord {w : DeviceWrite} (h : w.Encodable) (rest : Bytes)
    (room offset : Nat) : decodeRecord (encodeRecord w ++ rest) room offset = .ok (some w) := by
  obtain ⟨k, hk⟩ := encodeRecord_eq w
  have hoffset : readLe16? (le16 w.offset ++ ((le32 w.value).take w.size.toNat ++
      (List.replicate k 0 ++ rest))) = some w.offset := readLe16?_append ..
  have hdrop : (le16 w.offset ++ ((le32 w.value).take w.size.toNat ++
      (List.replicate k 0 ++ rest))).drop 2 = (le32 w.value).take w.size.toNat ++
      (List.replicate k 0 ++ rest) := rfl
  have hvalue := readSized?_append h.isWidth h.value_le (List.replicate k 0 ++ rest)
  rw [hk]
  simp only [List.cons_append, List.append_assoc, decodeRecord, ne_eq, not_true_eq_false,
    if_false, controlByte_and h, controlByte_shiftRight h, if_pos h.isWidth, hoffset, hdrop,
    hvalue]

/-! ## Runs of records -/

theorem length_flatMap_encodeRecord {ws : List DeviceWrite} (h : ∀ w ∈ ws, IsWidth w.size) :
    (ws.flatMap encodeRecord).length = recordLength * ws.length := by
  induction ws with
  | nil => rfl
  | cons w ws ih =>
    obtain ⟨hw, hws⟩ := List.forall_mem_cons.1 h
    rw [List.flatMap_cons, List.length_append, length_encodeRecord hw, ih hws, List.length_cons,
      Nat.mul_succ, Nat.add_comm]

/-- The room is exactly that of the records, so that nothing after them is read. -/
theorem decodeRecords_flatMap_encodeRecord {ws : List DeviceWrite} (h : ∀ w ∈ ws, w.Encodable)
    (rest : Bytes) (offset : Nat) :
    decodeRecords (ws.flatMap encodeRecord ++ rest) (recordLength * ws.length) offset = .ok ws := by
  induction ws generalizing offset with
  | nil => rw [decodeRecords]; rfl
  | cons w ws ih =>
    obtain ⟨hw, hws⟩ := List.forall_mem_cons.1 h
    have hdrop : (encodeRecord w ++ (ws.flatMap encodeRecord ++ rest)).drop recordLength =
        ws.flatMap encodeRecord ++ rest := List.drop_left' (length_encodeRecord hw.isWidth)
    have hroom : recordLength * (ws.length + 1) - recordLength = recordLength * ws.length := by
      rw [Nat.mul_succ, Nat.add_sub_cancel]
    have hfour : 4 ≤ recordLength * (ws.length + 1) := by
      rw [recordLength]
      omega
    rw [decodeRecords, List.length_cons, if_pos hfour, List.flatMap_cons, List.append_assoc,
      decodeRecord_encodeRecord hw, hdrop, hroom]
    simp only [bind, Except.bind, ih hws]
    rfl

end RegisterImage
