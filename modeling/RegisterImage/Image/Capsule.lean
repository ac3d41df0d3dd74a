import RegisterImage.Image.Container

/-!
# Capsules

A vendor capsule holds firmware in records: a mark, the length of the record, the sum of its
bytes, and a firmware body. Records are found by scanning for the mark; a mark that is not
followed by a length that fits is passed over.

## Main definitions

* `capsuleRecords` — the records of a buffer with their positions.
* `embeddedFirmware?` — what the first record with a known chip says about itself.
* `detectFirmware?` — the same, or what the body of an image says about itself.
-/

namespace RegisterImage

def capsuleMark : Bytes := [0x5F, 0x50, 0x54, 0x5F]

/-- The length of mark, length and sum. -/
def capsuleLead : Nat := 12

/-- Where the version stands in a record. -/
def capsuleDateOffset : Nat := 0x8C

/-- The length of the record at the front of a buffer, when there is one. -/
def capsuleLength? (bs : Bytes) : Option Nat :=
  if capsuleMark.isPrefixOf bs then
    ((readLe32? (bs.drop 4)).map UInt32.toNat).filter fun n =>
      decide (capsuleLead ≤ n ∧ n ≤ bs.length)
  else none

theorem capsuleLead_le_of_capsuleLength? {bs : Bytes} {n : Nat}
    (h : capsuleLength? bs = some n) : capsuleLead ≤ n ∧ n ≤ bs.length := by
  unfold capsuleLength? at h
  split at h
  · simpa using (Option.filter_eq_some_iff.1 h).2
  · cases h

/-- The records of a buffer that begins at `position`. A record is not searched for others. -/
def capsuleScan (position : Nat) (bs : Bytes) : List (Nat × Bytes) :=
  match bs with
  | [] => []
  | b :: rest =>
    match h : capsuleLength? (b :: rest) with
    | some n => (position, (b :: rest).take n) :: capsuleScan (position + n) ((b :: rest).drop n)
    | none => capsuleScan (position + 1) rest
termination_by bs.length
decreasing_by
  · have := capsuleLead_le_of_capsuleLength? h
    simp only [capsuleLead, List.length_drop, List.length_cons] at *
    omega
  · simp

def capsuleRecords (data : Bytes) : List (Nat × Bytes) :=
  capsuleScan 0 data

def embeddedFirmware? (data : Bytes) : Option FirmwareInfo :=
  (capsuleRecords data).findSome? fun r => FirmwareInfo.ofBytes? r.2 capsuleDateOffset

/-- An image counts only when its version can be read. -/
def detectFirmware? (data : Bytes) : Option FirmwareInfo :=
  embeddedFirmware? data <|>
    match SpiImage.ofBytes? data with
    | .ok (some image) => image.firmware.filter (·.date.isSome)
    | _ => none

end RegisterImage
