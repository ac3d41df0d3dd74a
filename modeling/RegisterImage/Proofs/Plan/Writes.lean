import RegisterImage.Proofs.Plan.Due

/-!
# Writes of registers

The writes of a plan are those of its registers one after the other. Where no preset replaces the
write of a register, it is written at its own address only, and last of all with its value.

## Main definitions

* `Register.writes` — the writes of one register.
* `Register.WritesItself.writes_cases` — a register is written with its value last, or not at all.
* `Catalog.Distinct.operations_eq` — the writes of a plan are those of the registers.
-/

namespace RegisterImage

/-! ## Expanded entries -/

theorem getLast?_collapse {α : Type} [DecidableEq α] (xs : List α) :
    (collapse xs).getLast? = xs.getLast? := by
  fun_induction collapse xs with
  | case1 => rfl
  | case2 => rfl
  | case3 x xs ih => rw [ih, List.getLast?_cons_cons]
  | case4 x y xs _ ih =>
    rw [List.getLast?_cons, ih, List.getLast?_cons, List.getLast?_cons_cons, List.getLast?_cons]
    rfl

theorem PlanEntry.getLast?_expand (e : PlanEntry) : e.expand.getLast? = some e.write := by
  rw [expand, List.getLast?_map, values, getLast?_collapse, List.getLast?_concat]
  rfl

theorem PlanEntry.slot_of_mem_expand {e : PlanEntry} {w : DeviceWrite} (h : w ∈ e.expand) :
    w.slot = e.write.slot := by
  obtain ⟨v, -, rfl⟩ := List.mem_map.1 h
  rfl

/-- The writes of a preset are expanded to themselves, whatever they are called. -/
theorem Candidate.expand_presetEntries (code : String) (count : Nat) (writes : List PresetWrite) :
    (presetEntries code count writes).flatMap PlanEntry.expand =
      writes.filterMap PresetWrite.toDevice? := by
  rw [← map_write_presetEntries code count writes, ← List.flatMap_pure_eq_map]
  refine List.flatMap_congr fun e he => ?_
  rw [PlanEntry.expand, PlanEntry.values, (mem_presetEntries he).1]
  rfl

namespace Register

/-- The chosen preset of a register, if any, has no writes of its own. -/
def WritesItself (r : Register) (s : Settings) (menu : Menu) : Prop :=
  (r.selected? s menu).bind (·.writes) = none

/-- The writes of a register alone. -/
def writes (r : Register) (s : Settings) (menu : Menu) : List DeviceWrite :=
  (r.contribution s menu 0).flatMap PlanEntry.expand

variable {r : Register} {s : Settings} {menu : Menu}

/-- The number of entries before matters for the codes of entries alone. -/
theorem expand_contribution (r : Register) (s : Settings) (menu : Menu) (count : Nat) :
    (r.contribution s menu count).flatMap PlanEntry.expand = r.writes s menu := by
  unfold writes contribution
  split
  · rfl
  · rename_i k _
    by_cases hwritten : k.isWritten (k.preset? menu) = true
    · cases hwrites : (k.preset? menu).bind (·.writes) with
      | none =>
        rw [Candidate.entries_of_value hwritten hwrites,
          Candidate.entries_of_value hwritten hwrites]
      | some writes =>
        rw [Candidate.entries_of_writes hwritten hwrites,
          Candidate.entries_of_writes hwritten hwrites, Candidate.expand_presetEntries,
          Candidate.expand_presetEntries]
    · rw [Candidate.entries_of_not_isWritten hwritten, Candidate.entries_of_not_isWritten hwritten]

theorem WritesItself.contribution_cases (h : r.WritesItself s menu) (count : Nat) :
    r.contribution s menu count = [] ∨ ∃ e address value size write steps,
      r.Due s (r.selected? s menu) e address value size ∧
        DeviceWrite.ofAddress? address value size = some write ∧
          r.contribution s menu count = [⟨r.code, write, steps⟩] := by
  by_cases hnil : r.contribution s menu count = []
  · exact .inl hnil
  · right
    obtain ⟨e, address, value, size, hdue⟩ := due_of_contribution_ne_nil hnil
    obtain ⟨steps, hown⟩ := hdue.contribution_of_value h count
    cases hwrite : DeviceWrite.ofAddress? address value size with
    | none =>
      rw [hwrite] at hown
      exact absurd hown hnil
    | some write =>
      rw [hwrite] at hown
      exact ⟨e, address, value, size, write, steps, hdue, hwrite, hown⟩

theorem WritesItself.writes_cases (h : r.WritesItself s menu) :
    r.writes s menu = [] ∨ ∃ e address value size write,
      r.Due s (r.selected? s menu) e address value size ∧
        DeviceWrite.ofAddress? address value size = some write ∧
        (r.writes s menu).getLast? = some write ∧
        ∀ w ∈ r.writes s menu, w.slot = write.slot := by
  unfold writes
  rcases h.contribution_cases 0 with hnil | ⟨e, address, value, size, write, steps, hdue, hwrite,
    hown⟩
  · rw [hnil]
    exact .inl rfl
  · right
    refine ⟨e, address, value, size, write, hdue, hwrite, ?_, fun w hw => ?_⟩
    · rw [hown, List.flatMap_singleton, PlanEntry.getLast?_expand]
    · rw [hown, List.flatMap_singleton] at hw
      rw [PlanEntry.slot_of_mem_expand hw]

/-- A register that is due is written with its value last, when the value fits. -/
theorem Due.getLast?_writes {e : String} {address value : UInt64} {size : UInt8}
    (h : r.Due s (r.selected? s menu) e address value size) (hplain : r.WritesItself s menu)
    (hfits : value ≤ sizeLimit size) :
    ∃ write, write.MadeFor address value size ∧ (r.writes s menu).getLast? = some write := by
  obtain ⟨steps, hown⟩ := h.contribution_of_value hplain 0
  obtain ⟨write, hwrite⟩ := DeviceWrite.exists_ofAddress? address
    (r.isWidth_of_width? h.width_eq) hfits
  rw [hwrite] at hown
  refine ⟨write, DeviceWrite.madeFor_of_ofAddress? hwrite, ?_⟩
  rw [writes, hown]
  simp [PlanEntry.getLast?_expand]

theorem slot?_of_madeFor {w : DeviceWrite} {address value : UInt64} {size : UInt8}
    (h : w.MadeFor address value size) (hle : address ≤ 0xFFFFF)
    (haddress : r.addressValue? = some address) (hsize : r.width? = some size) :
    r.slot? = some w.slot := by
  rw [DeviceWrite.slot, h.address_eq, h.size_eq, and_eq_self_of_le hle]
  simp [slot?, haddress, hsize]

/-- A register is written at its own address only. -/
theorem WritesItself.slot?_of_mem_writes (h : r.WritesItself s menu) {address : UInt64}
    (haddress : r.addressValue? = some address) (hle : address ≤ 0xFFFFF) {w : DeviceWrite}
    (hw : w ∈ r.writes s menu) : r.slot? = some w.slot := by
  rcases h.writes_cases with hnil | ⟨e, address', value, size, write, hdue, hwrite, -, hslot⟩
  · rw [hnil] at hw
    exact absurd hw List.not_mem_nil
  · obtain rfl := Option.some.inj (haddress.symm.trans hdue.address_eq)
    rw [hslot w hw]
    exact slot?_of_madeFor (DeviceWrite.madeFor_of_ofAddress? hwrite) hle haddress hdue.width_eq

end Register

theorem operations_contributions (s : Settings) (menu : Register → Menu) (rs : List Register)
    (count : Nat) : (contributions s menu rs count).flatMap PlanEntry.expand =
      rs.flatMap fun r => r.writes s (menu r) := by
  induction rs generalizing count with
  | nil => rfl
  | cons r rs ih =>
    rw [contributions, List.flatMap_append, ih, List.flatMap_cons, Register.expand_contribution]

theorem Catalog.Distinct.operations_eq {c : Catalog} (h : c.Distinct) (s : Settings) :
    (c.compile s).1.operations = c.registers.flatMap fun r => r.writes s (c.menu r).1 := by
  rw [Plan.operations, h.compile_entries s]
  exact operations_contributions s _ c.registers 0

end RegisterImage
