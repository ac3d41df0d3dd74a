import RegisterImage.Proofs.Checksum.Crc
import RegisterImage.Proofs.Image.FromHeader
import RegisterImage.Proofs.Image.Parts

/-!
# Damaged images

A buffer that differs from another within a short window. When the other one holds an intact
image and the window lies in its body, or in its header outside of length and mark, the image is
still found, and the CRC over the damaged part tells the damage.

## Main definitions

* `DiffersWithin` — two buffers that differ in a window and nowhere else.
* `DiffersWithin.crc32_ne`, `DiffersWithin.checksum8_ne` — short differences are told.
* `SpiImage.ofBytes?_of_damage` — what is reported of a damaged image.
-/

namespace RegisterImage

/-! ## Differences -/

theorem getElem?_slice (data : Bytes) (a n i : Nat) :
    ((data.drop a).take n)[i]? = if i < n then data[a + i]? else none := by
  rw [List.getElem?_take, List.getElem?_drop]

theorem eq_take_append_drop (bs : Bytes) (first width : Nat) :
    bs = bs.take first ++ (bs.drop first).take width ++ bs.drop (first + width) := by
  rw [List.append_assoc, ← List.drop_drop, List.take_append_drop, List.take_append_drop]

structure DiffersWithin (data data' : Bytes) (first width : Nat) : Prop where
  length_eq : data'.length = data.length
  within : ∀ i : Nat, data'[i]? ≠ data[i]? → first ≤ i ∧ i < first + width
  ne : data' ≠ data

namespace DiffersWithin

variable {data data' : Bytes} {first width : Nat}

theorem getElem?_eq (h : DiffersWithin data data' first width) {i : Nat}
    (hapart : i < first ∨ first + width ≤ i) : data'[i]? = data[i]? := by
  by_contra hne
  have hwithin := h.within i hne
  omega

theorem exists_ne (h : DiffersWithin data data' first width) : ∃ i : Nat, data'[i]? ≠ data[i]? := by
  by_contra hall
  push Not at hall
  exact h.ne (List.ext_getElem? hall)

/-- Slices apart from the window are the same. -/
theorem slice_eq (h : DiffersWithin data data' first width) {a n : Nat}
    (hapart : a + n ≤ first ∨ first + width ≤ a) :
    (data'.drop a).take n = (data.drop a).take n := by
  apply List.ext_getElem?
  intro i
  simp only [getElem?_slice]
  split
  · exact h.getElem?_eq (by omega)
  · rfl

/-- Slices around the window differ within it. -/
theorem slice (h : DiffersWithin data data' first width) {a n : Nat} (hle : a ≤ first)
    (hend : first + width ≤ a + n) :
    DiffersWithin ((data.drop a).take n) ((data'.drop a).take n) (first - a) width := by
  constructor
  · simp [h.length_eq]
  · intro i hne
    simp only [getElem?_slice] at hne
    split at hne
    · have hwithin := h.within _ hne
      omega
    · exact absurd rfl hne
  · intro heq
    obtain ⟨i, hne⟩ := h.exists_ne
    obtain ⟨hfirst, hlast⟩ := h.within i hne
    have hi : i - a < n := by omega
    have hslice := congrArg (·[i - a]?) heq
    simp only [getElem?_slice, if_pos hi, Nat.add_sub_cancel' (Nat.le_trans hle hfirst)] at hslice
    exact hne hslice

/-- A single difference is a window of its own. -/
theorem exists_single (h : DiffersWithin data data' first width)
    (hone : ∃! i : Nat, data'[i]? ≠ data[i]?) :
    ∃ i, first ≤ i ∧ i + 1 ≤ first + width ∧ DiffersWithin data data' i 1 := by
  obtain ⟨i, hne, hunique⟩ := hone
  have hwithin := h.within i hne
  refine ⟨i, hwithin.1, hwithin.2, h.length_eq, ?_, h.ne⟩
  intro j hj
  have hji := hunique j hj
  omega

theorem existsUnique (h : DiffersWithin data data' first 1) :
    ∃! i : Nat, data'[i]? ≠ data[i]? := by
  obtain ⟨i, hne⟩ := h.exists_ne
  have hi := h.within i hne
  refine ⟨i, hne, ?_⟩
  intro j hj
  have hj' := h.within j hj
  omega

/-- Some bytes put in the place of others. -/
theorem of_replaced {w : Bytes} (hle : first + w.length ≤ data.length)
    (hne : (data.drop first).take w.length ≠ w) :
    DiffersWithin data (data.take first ++ w ++ data.drop (first + w.length)) first w.length := by
  have hfront : (data.take first).length = first := List.length_take_of_le (by omega)
  constructor
  · simp only [List.length_append, hfront, List.length_drop]
    omega
  · intro i hdiffers
    by_contra hapart
    apply hdiffers
    rcases Nat.lt_or_ge i first with hi | hi
    · rw [List.append_assoc, List.getElem?_append_left (by omega), List.getElem?_take_of_lt hi]
    · have hend : (data.take first ++ w).length = first + w.length := by simp [hfront]
      rw [List.getElem?_append_right (by omega), hend, List.getElem?_drop]
      congr 1
      omega
  · intro heq
    apply hne
    rw [← heq, List.append_assoc, List.drop_left' hfront, List.take_left]

theorem exists_window (h : DiffersWithin data data' first width) :
    ∃ front w w' rest, data = front ++ w ++ rest ∧ data' = front ++ w' ++ rest ∧
      w'.length = w.length ∧ w'.length ≤ width ∧ w' ≠ w := by
  have hfront : data'.take first = data.take first := h.slice_eq (a := 0) (by omega)
  have hrest : data'.drop (first + width) = data.drop (first + width) := by
    apply List.ext_getElem?
    intro i
    rw [List.getElem?_drop, List.getElem?_drop, h.getElem?_eq (by omega)]
  refine ⟨data.take first, (data.drop first).take width, (data'.drop first).take width,
    data.drop (first + width), eq_take_append_drop .., ?_, ?_, ?_, ?_⟩
  · rw [← hfront, ← hrest]
    exact eq_take_append_drop ..
  · simp [h.length_eq]
  · exact List.length_take_le ..
  · intro heq
    apply h.ne
    rw [eq_take_append_drop data first width, eq_take_append_drop data' first width, hfront, hrest,
      heq]

theorem crc32_ne (h : DiffersWithin data data' first width) (hwidth : width ≤ 4) :
    crc32 data' ≠ crc32 data := by
  obtain ⟨front, w, w', rest, rfl, rfl, hlength, hle, hne⟩ := h.exists_window
  exact crc32_ne_of_burst hlength (by omega) hne rest

theorem checksum8_ne (h : DiffersWithin data data' first 1) : checksum8 data' ≠ checksum8 data := by
  obtain ⟨front, w, w', rest, rfl, rfl, hlength, hle, hne⟩ := h.exists_window
  match w, w' with
  | [], [] => exact absurd rfl hne
  | [b], [b'] =>
    apply checksum8_ne_of_byte
    intro hb
    exact hne (hb ▸ rfl)
  | _, _ :: _ :: _ => simp at hle
  | [], [_] | _ :: _, [] | _ :: _ :: _, [_] => simp at hlength

/-! ## What is read apart from the window -/

theorem readLe32?_eq (h : DiffersWithin data data' first width) {a : Nat}
    (hapart : a + 4 ≤ first ∨ first + width ≤ a) :
    readLe32? (data'.drop a) = readLe32? (data.drop a) := by
  rw [← readLe32?_take, h.slice_eq hapart, readLe32?_take]

theorem headerChip?_eq (h : DiffersWithin data data' first width)
    (hapart : first + width ≤ 4 ∨ 16 ≤ first) : headerChip? data' = headerChip? data := by
  simp only [headerChip?, h.slice_eq (a := 6) (n := 10) (by omega)]

theorem declaredLength_eq (h : DiffersWithin data data' first width)
    (hapart : first + width ≤ 4 ∨ 16 ≤ first) : declaredLength data' = declaredLength data := by
  simp only [declaredLength]
  rw [← readLe16?_take, h.slice_eq (by omega), readLe16?_take]

section Checks

variable {length : Nat}

theorem checksumHolds_eq (h : DiffersWithin data data' first width) (hapart : length < first) :
    checksumHolds data' length = checksumHolds data length := by
  have htake : data'.take length = data.take length := h.slice_eq (a := 0) (by omega)
  simp only [checksumHolds, List.head?_drop, htake, h.getElem?_eq (.inl hapart)]

theorem crcHolds_eq (h : DiffersWithin data data' first width) (hapart : length + 5 ≤ first) :
    crcHolds data' length = crcHolds data length := by
  have htake : data'.take length = data.take length := h.slice_eq (a := 0) (by omega)
  simp only [crcHolds, htake, h.readLe32?_eq (a := length + 1) (by omega)]

theorem crcHolds_eq_false (h : DiffersWithin data data' first width) (hwidth : width ≤ 4)
    (hlast : first + width ≤ length) (hcrc : crcHolds data length = true) :
    crcHolds data' length = false := by
  have hheader : DiffersWithin (data.take length) (data'.take length) first width :=
    h.slice (a := 0) (by omega) (by omega)
  simp only [crcHolds, decide_eq_true_eq, decide_eq_false_iff_not] at hcrc ⊢
  rw [h.readLe32?_eq (by omega), hcrc, Option.some.injEq]
  exact (hheader.crc32_ne hwidth).symm

theorem checksumHolds_eq_false (h : DiffersWithin data data' first 1)
    (hlast : first + 1 ≤ length) (hsum : checksumHolds data length = true) :
    checksumHolds data' length = false := by
  have hheader : DiffersWithin (data.take length) (data'.take length) first 1 :=
    h.slice (a := 0) (by omega) (by omega)
  simp only [checksumHolds, List.head?_drop, decide_eq_true_eq, decide_eq_false_iff_not] at hsum ⊢
  rw [h.getElem?_eq (by omega), hsum, Option.some.injEq]
  exact hheader.checksum8_ne.symm

end Checks

end DiffersWithin

/-! ## Damaged images -/

theorem RecordTable.checks_of_decode {chip : Chip} {data : Bytes} {length : Nat}
    {table : RecordTable} (h : decode chip data length = .ok table) :
    table.checksumOk = checksumHolds data length ∧ table.crcOk = crcHolds data length := by
  obtain ⟨writes, -, rfl⟩ := decode_eq_ok_iff.1 h
  exact ⟨rfl, rfl⟩

namespace SpiImage

variable {data data' : Bytes} {chip : Chip} {size : UInt32} {first width : Nat}

theorem Holds.of_damage (h : Holds data chip size) (hdiff : DiffersWithin data data' first width)
    (hlead : first + width ≤ 4 ∨ 16 ≤ first)
    (hsize : first + width ≤ declaredLength data + 5 ∨ declaredLength data + 9 ≤ first) :
    Holds data' chip size := by
  have hlength := hdiff.declaredLength_eq hlead
  constructor
  · rw [hdiff.length_eq]
    exact h.minLength_le
  · rw [hdiff.headerChip?_eq hlead, h.chip_eq]
  · rw [hlength]
    exact h.lead_le
  · rw [hlength, hdiff.readLe32?_eq (by omega), h.size_eq]
  · rw [hlength, hdiff.length_eq]
    exact h.room

section Parts

variable {length n : Nat}

/-- Damage before the body does not reach the body and its seals. -/
theorem parts_eq_of_damage (hdiff : DiffersWithin data data' first width)
    (hlast : first + width ≤ length + 9) :
    parts chip data' length n =
      { parts chip data length n with
        header := data'.take length
        headerChecksumOk := checksumHolds data' length
        headerCrcOk := crcHolds data' length } := by
  have hbyte := hdiff.getElem?_eq (i := length + 9 + n + 8) (by omega)
  simp only [parts, List.headD_eq_head?_getD, List.head?_drop, hbyte,
    hdiff.slice_eq (a := length + 9) (n := n) (by omega),
    hdiff.slice_eq (a := length + 9 + n) (n := 8) (by omega),
    hdiff.readLe32?_eq (a := length + 9 + n + 9) (by omega)]

/-- Damage in the body leaves the stored seals. -/
theorem crcOk_parts_eq_false (hdiff : DiffersWithin data data' first width) (hwidth : width ≤ 4)
    (hfirst : length + 9 ≤ first) (hlast : first + width ≤ length + 9 + n)
    (hcrc : (parts chip data length n).crcOk = true) :
    (parts chip data' length n).crcOk = false := by
  have hbody : DiffersWithin (parts chip data length n).body (parts chip data' length n).body
      (first - (length + 9)) width := hdiff.slice hfirst hlast
  have hstored : (parts chip data' length n).storedCrc = (parts chip data length n).storedCrc :=
    congrArg (·.getD 0) (hdiff.readLe32?_eq (by omega))
  rw [crcOk, decide_eq_true_iff] at hcrc
  rw [crcOk, decide_eq_false_iff_not, hstored, hcrc]
  exact (hbody.crc32_ne hwidth).symm

theorem checksumOk_parts_eq_false (hdiff : DiffersWithin data data' first 1)
    (hfirst : length + 9 ≤ first) (hlast : first + 1 ≤ length + 9 + n)
    (hsum : (parts chip data length n).checksumOk = true) :
    (parts chip data' length n).checksumOk = false := by
  have hbody : DiffersWithin (parts chip data length n).body (parts chip data' length n).body
      (first - (length + 9)) 1 := hdiff.slice hfirst hlast
  have hstored : (parts chip data' length n).storedChecksum =
      (parts chip data length n).storedChecksum := by
    simp only [parts, List.headD_eq_head?_getD, List.head?_drop]
    rw [hdiff.getElem?_eq (by omega)]
  rw [checksumOk, decide_eq_true_iff] at hsum
  rw [checksumOk, decide_eq_false_iff_not, hstored, hsum]
  exact hbody.checksum8_ne.symm

end Parts

/-- Of an intact image that is damaged within four bytes, in its body or in its header outside of
length and mark, the damaged part has a wrong CRC, and a wrong checksum when it is one byte that
is damaged. The other part is as it was. -/
theorem ofBytes?_of_damage {data data' : Bytes} {image : SpiImage}
    (himage : ofBytes? data = .ok (some image)) (hintact : image.isIntact = true)
    {first width : Nat} (hdiff : DiffersWithin data data' first width) (hwidth : width ≤ 4) :
    (image.header.length + 9 ≤ first →
      first + width ≤ image.header.length + 9 + image.body.length →
      ∃ image', ofBytes? data' = .ok (some image') ∧ image'.crcOk = false ∧
        image'.headerChecksumOk = true ∧ image'.headerCrcOk = true ∧
        ((∃! i : Nat, data'[i]? ≠ data[i]?) → image'.checksumOk = false)) ∧
    (first + width ≤ 4 ∨ 16 ≤ first ∧ first + width ≤ image.header.length →
      (∃ image', ofBytes? data' = .ok (some image') ∧ image'.headerCrcOk = false ∧
        image'.checksumOk = true ∧ image'.crcOk = true ∧ image'.footerOk = true ∧
        ((∃! i : Nat, data'[i]? ≠ data[i]?) → image'.headerChecksumOk = false)) ∧
      ∀ table, RecordTable.ofBytes? data' = .ok (some table) → table.crcOk = false ∧
        ((∃! i : Nat, data'[i]? ≠ data[i]?) → table.checksumOk = false)) := by
  obtain ⟨chip, size, hholds, rfl⟩ := ofBytes?_eq_ok_some_iff.1 himage
  obtain ⟨hheaderSum, hheaderCrc, hfooter, hsum, hcrc⟩ := isIntact_iff.1 hintact
  have hlead := hholds.lead_le
  have hroom := hholds.room
  have hheader : (parts chip data (declaredLength data) size.toNat).header.length =
      declaredLength data := List.length_take_of_le (by omega)
  have hbody : (parts chip data (declaredLength data) size.toNat).body.length = size.toNat := by
    simp only [parts, List.length_take, List.length_drop]
    omega
  rw [hheader, hbody]
  constructor
  · intro hfirst hlast
    have hlength := hdiff.declaredLength_eq (.inr (by omega))
    refine ⟨_, ofBytes?_eq_ok_some_iff.2
      ⟨chip, size, hholds.of_damage hdiff (by omega) (by omega), rfl⟩, ?_⟩
    rw [hlength]
    refine ⟨crcOk_parts_eq_false hdiff hwidth hfirst hlast hcrc,
      (hdiff.checksumHolds_eq (by omega)).trans hheaderSum,
      (hdiff.crcHolds_eq (by omega)).trans hheaderCrc, ?_⟩
    intro hone
    obtain ⟨i, hi, hi', hsingle⟩ := hdiff.exists_single hone
    exact checksumOk_parts_eq_false hsingle (by omega) (by omega) hsum
  · intro hwindow
    have hlength := hdiff.declaredLength_eq (by omega)
    have hcrc' : crcHolds data' (declaredLength data) = false :=
      hdiff.crcHolds_eq_false hwidth (by omega) hheaderCrc
    have hsum' : (∃! i : Nat, data'[i]? ≠ data[i]?) →
        checksumHolds data' (declaredLength data) = false := by
      intro hone
      obtain ⟨i, hi, hi', hsingle⟩ := hdiff.exists_single hone
      exact hsingle.checksumHolds_eq_false (by omega) hheaderSum
    constructor
    · refine ⟨_, ofBytes?_eq_ok_some_iff.2
        ⟨chip, size, hholds.of_damage hdiff (by omega) (by omega), rfl⟩, ?_⟩
      rw [hlength, parts_eq_of_damage hdiff (by omega)]
      exact ⟨hcrc', hsum, hcrc, hfooter, hsum'⟩
    · intro table htable
      obtain ⟨chip', -, -, -, htable⟩ := RecordTable.ofBytes?_eq_ok_some_iff.1 htable
      obtain ⟨htableSum, htableCrc⟩ := RecordTable.checks_of_decode htable
      rw [htableSum, htableCrc, hlength]
      exact ⟨hcrc', hsum'⟩

theorem ofBytes?_of_damage_in_header_and_body :
    let lead := headerLead .prom19 20 ++ [0x52, 0x65, 0x76, 0x43]
    let data := buildImage .prom19 (lead ++ sealOf lead) [0xCC, 0xFF, 0, 0, 7]
    let inHeader := data.take 18 ++ [0x77] ++ data.drop 19
    let inBody := data.take 30 ++ [0xFE, 0, 1, 8] ++ data.drop 34
    ∃ image, ofBytes? data = .ok (some image) ∧ image.isIntact = true ∧
      DiffersWithin data inHeader 18 1 ∧ DiffersWithin data inBody 30 4 ∧
      (∃ damaged, ofBytes? inHeader = .ok (some damaged) ∧ damaged.headerCrcOk = false ∧
        damaged.headerChecksumOk = false ∧ damaged.crcOk = true) ∧
      ∃ damaged, ofBytes? inBody = .ok (some damaged) ∧ damaged.crcOk = false ∧
        damaged.headerCrcOk = true := by
  intro lead data inHeader inBody
  have hholds : Holds data .prom19 5 := by
    constructor <;> decide +kernel
  have himage := ofBytes?_eq_ok_some_iff.2 ⟨_, _, hholds, rfl⟩
  have hintact : (parts .prom19 data (declaredLength data) 5).isIntact = true := by
    decide +kernel
  have hheader : DiffersWithin data inHeader 18 1 :=
    DiffersWithin.of_replaced (w := [0x77]) (by decide +kernel) (by decide +kernel)
  have hbody : DiffersWithin data inBody 30 4 :=
    DiffersWithin.of_replaced (w := [0xFE, 0, 1, 8]) (by decide +kernel) (by decide +kernel)
  obtain ⟨damaged, hdamaged, hcrc, -, hcrc', -, hsum⟩ :=
    ((ofBytes?_of_damage himage hintact hheader (by omega)).2
      (.inr ⟨by omega, by decide +kernel⟩)).1
  obtain ⟨damaged', hdamaged', hcrc'', -, hheaderCrc, -⟩ :=
    (ofBytes?_of_damage himage hintact hbody (by omega)).1 (by decide +kernel) (by decide +kernel)
  exact ⟨_, himage, hintact, hheader, hbody,
    ⟨damaged, hdamaged, hcrc, hsum hheader.existsUnique, hcrc'⟩,
    damaged', hdamaged', hcrc'', hheaderCrc⟩

end SpiImage

end RegisterImage
