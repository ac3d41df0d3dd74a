import RegisterImage.Proofs.Access.Decode

/-!
# Cut and extended images

An image takes up the front of its buffer, and how much of it is told by the two lengths in it. A
buffer that begins with the same bytes holds the same image, whatever follows. A buffer that ends
before does not hold one, and the part that is cut off is the one that is reported.

## Main definitions

* `SpiImage.cutFault` — what is missing when an image is cut.
* `SpiImage.Holds.congr` — an image is found in every buffer with its bytes.
* `SpiImage.Holds.decode_take` — what is found where an image is cut.
* `SpiImage.ofBytes?_extended_or_cut` — the bytes that decide whether there is an image, and which.
-/

namespace RegisterImage

namespace SpiImage

variable {data data' : Bytes} {chip : Chip} {size : UInt32} {n : Nat}

/-! ## More bytes -/

theorem Holds.congr (h : Holds data chip size) (hsame : data'.take n = data.take n)
    (hn : declaredLength data + 9 + size.toNat + 13 ≤ n) : Holds data' chip size := by
  have hlead := h.lead_le
  have hroom := h.room
  have hlength := declaredLength_congr hsame (by omega)
  have hlong : declaredLength data + 9 + size.toNat + 13 ≤ data'.length := by
    have hcount := congrArg List.length hsame
    rw [List.length_take, List.length_take] at hcount
    omega
  constructor
  · rw [minLength]
    omega
  · rw [headerChip?_congr hsame (by omega), h.chip_eq]
  · rw [hlength]
    exact hlead
  · rw [hlength, readLe32?_congr hsame (by omega), h.size_eq]
  · rw [hlength]
    exact hlong

theorem parts_congr {length size : Nat} (hsame : data'.take n = data.take n)
    (hn : length + 9 + size + 13 ≤ n) :
    parts chip data' length size = parts chip data length size := by
  have hsum := getElem?_congr hsame (show length + 9 + size + 8 < n by omega)
  simp only [parts, take_congr hsame (show length ≤ n by omega),
    checksumHolds_congr hsame (show length < n by omega),
    crcHolds_congr hsame (show length + 5 ≤ n by omega),
    take_drop_congr hsame (show length + 9 + size ≤ n by omega),
    take_drop_congr hsame (show length + 9 + size + 8 ≤ n by omega),
    readLe32?_congr hsame (show length + 9 + size + 9 + 4 ≤ n by omega),
    List.headD_eq_head?_getD, List.head?_drop, hsum]

/-! ## Fewer bytes -/

/-- What is missing of an image that is cut after `n` bytes. -/
def cutFault (image : SpiImage) (n : Nat) : ContainerFault :=
  let length := image.header.length
  if n < length then .invalidHeaderLength length
  else if n < length + 9 then .bodySizeMissing
  else if n < length + 9 + image.body.length then
    .bodyOverrun (length + 9) (UInt32.ofNat image.body.length)
  else .footerMissing

theorem decode_of_short_header
    (h : declaredLength data < 16 ∨ data.length < declaredLength data) :
    decode chip data = .error (.invalidHeaderLength (declaredLength data)) := by
  simp only [decode, if_pos h]

theorem decode_of_short_size (hlead : 16 ≤ declaredLength data)
    (hheader : declaredLength data ≤ data.length)
    (hsize : data.length < declaredLength data + 9) :
    decode chip data = .error .bodySizeMissing := by
  have hwhole : ¬(declaredLength data < 16 ∨ data.length < declaredLength data) := by omega
  have hnone : readLe32? (data.drop (declaredLength data + 5)) = none := by
    by_contra hne
    obtain ⟨w, hw⟩ := Option.ne_none_iff_exists'.1 hne
    have hlong := le_of_readLe32?_eq_some hw
    rw [List.length_drop] at hlong
    omega
  simp only [decode, if_neg hwhole, hnone]

/-- Each check of the decoder finds the cuts between the one before it and itself. -/
theorem Holds.decode_take (h : Holds data chip size) (hlead : 16 ≤ n)
    (hcut : n < declaredLength data + 9 + size.toNat + 13) :
    decode chip (data.take n) =
      .error ((parts chip data (declaredLength data) size.toNat).cutFault n) := by
  have hmin := h.lead_le
  have hroom := h.room
  have hsame := take_take_self data n
  have hlength : declaredLength (data.take n) = declaredLength data :=
    declaredLength_congr hsame (by omega)
  have hcount : (data.take n).length = n := List.length_take_of_le (by omega)
  rw [cutFault, h.length_header, h.length_body, UInt32.ofNat_toNat]
  by_cases hheader : n < declaredLength data
  · rw [decode_of_short_header (by omega), hlength, if_pos hheader]
  · by_cases hsize : n < declaredLength data + 9
    · rw [decode_of_short_size (by omega) (by omega) (by omega), if_neg hheader, if_pos hsize]
    · have hread := readLe32?_congr hsame (show declaredLength data + 5 + 4 ≤ n by omega)
      rw [h.size_eq, ← hlength] at hread
      rw [decode_of_size (by omega) hread, hlength, hcount, if_pos hcut, if_neg hheader,
        if_neg hsize]
      split <;> rfl

/-- The image in a buffer is decided by its own bytes: every buffer that begins with them holds the
same image, and of a buffer that ends before the last of them the missing part is reported. A
buffer of less than 32 bytes is not looked at. -/
theorem ofBytes?_extended_or_cut {image : SpiImage} (h : ofBytes? data = .ok (some image)) :
    let length := image.header.length + 5 + 4 + image.body.length + 8 + 5
    length ≤ data.length ∧
      (∀ data', data.take length <+: data' → ofBytes? data' = .ok (some image)) ∧
      ∀ n < length, ofBytes? (data.take n) =
        if n < minLength then .ok none else .error (.container image.chip (image.cutFault n)) := by
  obtain ⟨chip, size, hholds, rfl⟩ := ofBytes?_eq_ok_some_iff.1 h
  rw [hholds.length_header, hholds.length_body]
  intro length
  have hlength : length = declaredLength data + 9 + size.toNat + 13 := by omega
  have hroom : length ≤ data.length := hlength ▸ hholds.room
  refine ⟨hroom, fun data' hprefix => ?_, fun n hn => ?_⟩
  · have hsame : data'.take length = data.take length := by
      rw [List.prefix_iff_eq_take.1 hprefix, List.length_take_of_le hroom]
    refine ofBytes?_eq_ok_some_iff.2 ⟨chip, size, hholds.congr hsame hlength.ge, ?_⟩
    rw [declaredLength_congr hsame (by omega), parts_congr hsame hlength.ge]
  · have hcount : (data.take n).length = n := List.length_take_of_le (by omega)
    rw [ofBytes?, hcount]
    split
    · rfl
    · rename_i hmin
      rw [minLength] at hmin
      simp only [headerChip?_congr (take_take_self data n) (show 16 ≤ n by omega), hholds.chip_eq,
        hholds.decode_take (show 16 ≤ n by omega) (show n < _ by omega)]
      rfl

/-- An image with a header of 36 bytes, a body of three and wrong seals, and two bytes after it. -/
theorem ofBytes?_extended_or_cut_of_unsealed :
    let data : Bytes := headerLead .promLP 36 ++ List.replicate 20 0 ++ [1, 2, 3, 4, 5] ++
      le32 3 ++ [0xCC, 0xFF, 7] ++ List.replicate 13 9 ++ [1, 2]
    ∃ image, ofBytes? data = .ok (some image) ∧ image.isIntact = false ∧
      data.take 61 <+: data.take 61 ++ [0xEE] ∧
      ofBytes? (data.take 61 ++ [0xEE]) = .ok (some image) ∧
      ofBytes? (data.take 31) = .ok none ∧
      ofBytes? (data.take 35) = .error (.container .promLP (.invalidHeaderLength 36)) ∧
      ofBytes? (data.take 44) = .error (.container .promLP .bodySizeMissing) ∧
      ofBytes? (data.take 47) = .error (.container .promLP (.bodyOverrun 45 3)) ∧
      ofBytes? (data.take 60) = .error (.container .promLP .footerMissing) := by
  intro data
  have hholds : Holds data .promLP 3 := by
    constructor <;> decide +kernel
  have himage := ofBytes?_eq_ok_some_iff.2 ⟨_, _, hholds, rfl⟩
  have hunsealed : (parts .promLP data (declaredLength data) 3).isIntact = false := by
    decide +kernel
  obtain ⟨-, hextended, hcut⟩ := ofBytes?_extended_or_cut himage
  have hprefix : data.take 61 <+: data.take 61 ++ [0xEE] := List.prefix_append ..
  exact ⟨_, himage, hunsealed, hprefix, hextended _ hprefix,
    (hcut 31 (by decide +kernel)).trans (by decide +kernel),
    (hcut 35 (by decide +kernel)).trans (by decide +kernel),
    (hcut 44 (by decide +kernel)).trans (by decide +kernel),
    (hcut 47 (by decide +kernel)).trans (by decide +kernel),
    (hcut 60 (by decide +kernel)).trans (by decide +kernel)⟩

end SpiImage

end RegisterImage
