import RegisterImage.Proofs.Plan.Address
import RegisterImage.Proofs.Plan.Contributions

/-!
# Registers that are written

A register is due when it has a value that may be written and there is a reason to write it. Only
registers that are due are written, and a due one is written unless its default is too wide for
it. A preset with writes puts them in the place of the one write of the register.

## Main definitions

* `Register.Effective` — the value that a register is to have.
* `Register.Due` — what it takes for a register to be written.
* `Candidate.isWritten_iff` — the reasons for writing a candidate.
* `Catalog.compile_register` — what exactly a register adds to a plan.
-/

namespace RegisterImage

namespace Register

/-! ## Conditions -/

/-- The value that a register is to have: a stored one comes first, and zero stands for the
default of a register that has to be written and has none. -/
inductive Effective (r : Register) : Option String → String → Prop where
  | stored {v : String} : v ≠ "" → Effective r (some v) v
  | initial {o : Option String} :
      (∀ v ∈ o, v = "") → r.defaultHex ≠ "" → Effective r o r.defaultHex
  | zero {o : Option String} :
      (∀ v ∈ o, v = "") → r.defaultHex = "" → r.required → Effective r o "0x0"

/-- Whether one of the writes puts the default of the register at its own address. -/
def DefaultAmong (r : Register) (address : UInt64) (size : UInt8) (writes : List PresetWrite) :
    Prop :=
  ∃ n, r.defaultValue? = some n ∧ ⟨some address, some n, some size.toUInt64⟩ ∈ writes

theorem any_putsAmong_iff {r : Register} {address : UInt64} {size : UInt8}
    {writes : List PresetWrite} :
    (r.defaultValue?.any fun n => Preset.putsAmong writes address n size) = true ↔
      r.DefaultAmong address size writes := by
  simp only [Option.any_eq_true, Preset.putsAmong, List.any_eq_true, PresetWrite.puts,
    Bool.and_eq_true, decide_eq_true_eq, DefaultAmong]
  refine exists_congr fun n => and_congr_right fun _ => ⟨?_, fun h => ⟨_, h, by simp⟩⟩
  rintro ⟨⟨a, v, w⟩, hw, ⟨rfl, rfl⟩, rfl⟩
  exact hw

/-- The reasons for writing a register with some value. -/
inductive Reason (r : Register) (preset : Option Preset) (e : String) (address : UInt64)
    (size : UInt8) : Prop where
  | changed : ¬hexEquals e r.defaultHex → Reason r preset e address size
  | required : r.required → Reason r preset e address size
  | presetRequired {p : Preset} : preset = some p → p.required → Reason r preset e address size
  | presetWrites {p : Preset} {writes : List PresetWrite} : preset = some p →
      p.writes = some writes → ¬r.DefaultAmong address size writes →
      Reason r preset e address size

structure Due (r : Register) (s : Settings) (preset : Option Preset) (e : String)
    (address value : UInt64) (size : UInt8) : Prop where
  effective : r.Effective (s.value? r.code) e
  address_eq : r.addressValue? = some address
  value_eq : readHex? e = some value
  width_eq : r.width? = some size
  accepted : hexEquals e r.defaultHex ∨ r.accepts e
  reason : r.Reason preset e address size

/-- The preset under the chosen label, for a register with byte fields. -/
def selected? (r : Register) (s : Settings) (menu : Menu) : Option Preset :=
  if r.byteFields.isSome then (s.preset? r.code).bind menu.preset? else none

/-! ## Candidates -/

theorem isWidth_of_width? (r : Register) {size : UInt8} (h : r.width? = some size) :
    IsWidth size := by
  simp only [width?, Option.bind_eq_some_iff] at h
  obtain ⟨n, -, h⟩ := h
  split at h
  · rename_i hn
    obtain rfl := Option.some.inj h
    rcases hn with rfl | rfl | rfl <;> decide
  · cases h

theorem effective?_eq_some_iff (r : Register) (stored : Option String) (e : String) :
    r.effective? stored = some e ↔ r.Effective stored e := by
  have hnone (h : ∀ v ∈ stored, v = "") : stored.filter (· ≠ "") = none :=
    Option.filter_eq_none_iff.2 fun v hv => by simp [h v hv]
  have hblank (h : stored.filter (· ≠ "") = none) : ∀ v ∈ stored, v = "" := fun v hv => by
    simpa using Option.filter_eq_none_iff.1 h v hv
  constructor
  · intro h
    unfold effective? at h
    split at h
    · rename_i v hv
      obtain ⟨rfl, hne⟩ := Option.filter_eq_some_iff.1 hv
      obtain rfl := Option.some.inj h
      exact .stored (by simpa using hne)
    · rename_i hstored
      split at h
      · rename_i hdefault
        obtain rfl := Option.some.inj h
        exact .initial (hblank hstored) hdefault
      · rename_i hdefault
        split at h
        · rename_i hrequired
          obtain rfl := Option.some.inj h
          exact .zero (hblank hstored) (not_not.1 hdefault) hrequired
        · cases h
  · intro h
    unfold effective?
    cases h with
    | stored hne => rw [Option.filter_some, if_pos (by simpa using hne)]
    | initial hstored hdefault => rw [hnone hstored]; exact if_pos hdefault
    | zero hstored hdefault hrequired =>
      rw [hnone hstored]
      simp [hdefault, hrequired]

/-- What makes a candidate; whether it is written is another matter. -/
theorem candidate?_eq_some_iff (r : Register) (stored chosen : Option String) (k : Candidate) :
    r.candidate? stored chosen = some k ↔
      ∃ e address value size, r.Effective stored e ∧ r.addressValue? = some address ∧
        readHex? e = some value ∧ r.width? = some size ∧
        (hexEquals e r.defaultHex ∨ r.accepts e) ∧
        ⟨r, address, value, size, !hexEquals e r.defaultHex, chosen⟩ = k := by
  constructor
  · intro h
    simp only [candidate?, Option.bind_eq_bind, Option.bind_eq_some_iff] at h
    obtain ⟨address, haddress, e, he, h⟩ := h
    split at h
    · cases h
    · rename_i haccepted
      simp only [Option.bind_eq_some_iff] at h
      obtain ⟨value, hvalue, size, hsize, h⟩ := h
      refine ⟨e, address, value, size, (r.effective?_eq_some_iff stored e).1 he, haddress, hvalue,
        hsize, ?_, Option.some.inj h⟩
      by_cases hequal : hexEquals e r.defaultHex
      · exact .inl hequal
      · right
        simpa [hequal] using haccepted
  · rintro ⟨e, address, value, size, he, haddress, hvalue, hsize, haccepted, rfl⟩
    have hguard : ¬((!hexEquals e r.defaultHex && !r.accepts e) = true) := by
      rcases haccepted with h | h <;> simp [h]
    simp only [candidate?, haddress, (effective?_eq_some_iff _ stored e).2 he,
      Option.bind_eq_bind, Option.bind_some, hguard, hvalue, hsize]
    rfl

theorem register_of_candidate? {r : Register} {stored chosen : Option String} {k : Candidate}
    (h : r.candidate? stored chosen = some k) : k.register = r := by
  obtain ⟨_, _, _, _, -, -, -, -, -, rfl⟩ := (r.candidate?_eq_some_iff _ _ k).1 h
  rfl

end Register

namespace Candidate

/-- Among the reasons, the default may be written by the preset only to the address and with the
width of the candidate. -/
theorem presetChanges_iff (k : Candidate) (preset : Option Preset) :
    k.presetChanges preset = true ↔ ∃ p, preset = some p ∧ ∃ writes, p.writes = some writes ∧
      ¬k.register.DefaultAmong k.address k.width writes := by
  unfold presetChanges
  cases preset with
  | none => simp
  | some p =>
    cases hwrites : p.writes with
    | none => simp [hwrites]
    | some writes => simp [hwrites, ← Register.any_putsAmong_iff]

theorem isWritten_iff (r : Register) (preset : Option Preset) (e : String)
    (address value : UInt64) (size : UInt8) (chosen : Option String) :
    isWritten ⟨r, address, value, size, !hexEquals e r.defaultHex, chosen⟩ preset = true ↔
      r.Reason preset e address size := by
  simp only [isWritten, Bool.or_eq_true, presetChanges_iff, Bool.not_eq_true',
    Option.any_eq_true]
  constructor
  · rintro (((h | ⟨p, hp, writes, hwrites, h⟩) | h) | ⟨p, hp, h⟩)
    · exact .changed (by simp [h])
    · exact .presetWrites hp hwrites h
    · exact .required h
    · exact .presetRequired hp h
  · rintro (h | h | ⟨hp, h⟩ | ⟨hp, hwrites, h⟩)
    · exact .inl (.inl (.inl (by simpa using h)))
    · exact .inl (.inr h)
    · exact .inr ⟨_, hp, h⟩
    · exact .inl (.inl (.inr ⟨_, hp, _, hwrites, h⟩))

/-! ## Entries -/

theorem entries_of_writes {k : Candidate} {menu : Menu} {count : Nat} {writes : List PresetWrite}
    (hwritten : k.isWritten (k.preset? menu) = true)
    (hwrites : (k.preset? menu).bind (·.writes) = some writes) :
    k.entries menu count = presetEntries k.register.code count writes := by
  simp only [entries, hwritten, hwrites]
  rfl

theorem entries_of_value {k : Candidate} {menu : Menu} {count : Nat}
    (hwritten : k.isWritten (k.preset? menu) = true)
    (hwrites : (k.preset? menu).bind (·.writes) = none) :
    k.entries menu count =
      ((DeviceWrite.ofAddress? k.address k.value k.width).map fun write =>
        (⟨k.register.code, write, (k.steps menu (k.preset? menu)).map UInt64.toUInt32⟩ :
          PlanEntry)).toList := by
  simp only [entries, hwritten, hwrites]
  cases DeviceWrite.ofAddress? k.address k.value k.width <;> rfl

theorem entries_of_not_isWritten {k : Candidate} {menu : Menu} {count : Nat}
    (h : ¬k.isWritten (k.preset? menu) = true) : k.entries menu count = [] :=
  if_neg h

end Candidate

/-! ## What a register adds -/

namespace Register

variable {r : Register} {s : Settings} {menu : Menu}

theorem due_of_contribution_ne_nil {count : Nat} (h : r.contribution s menu count ≠ []) :
    ∃ e address value size, r.Due s (r.selected? s menu) e address value size := by
  unfold contribution at h
  split at h
  · exact absurd rfl h
  · rename_i k hk
    obtain ⟨e, address, value, size, heffective, haddress, hvalue, hsize, haccepted, rfl⟩ :=
      (r.candidate?_eq_some_iff _ _ k).1 hk
    refine ⟨e, address, value, size, heffective, haddress, hvalue, hsize, haccepted, ?_⟩
    refine (Candidate.isWritten_iff r _ e address value size (s.preset? r.code)).1 ?_
    by_contra hnot
    exact h (Candidate.entries_of_not_isWritten hnot)

variable {e : String} {address value : UInt64} {size : UInt8}

/-- A register that is due is a candidate, and the candidate is written. -/
theorem Due.exists_candidate (h : r.Due s (r.selected? s menu) e address value size) :
    ∃ k : Candidate, r.candidate? (s.value? r.code) (s.preset? r.code) = some k ∧
      k.isWritten (k.preset? menu) = true ∧ k.preset? menu = r.selected? s menu ∧
      k.register = r ∧ k.address = address ∧ k.value = value ∧ k.width = size := by
  refine ⟨_, (r.candidate?_eq_some_iff _ _ _).2 ⟨e, address, value, size, h.effective,
    h.address_eq, h.value_eq, h.width_eq, h.accepted, rfl⟩, ?_, rfl, rfl, rfl, rfl, rfl⟩
  exact (Candidate.isWritten_iff r _ e address value size (s.preset? r.code)).2 h.reason

theorem Due.contribution_of_writes (h : r.Due s (r.selected? s menu) e address value size)
    {writes : List PresetWrite} (hwrites : (r.selected? s menu).bind (·.writes) = some writes)
    (count : Nat) : r.contribution s menu count = Candidate.presetEntries r.code count writes := by
  obtain ⟨k, hk, hwritten, hpreset, rfl, -, -, -⟩ := h.exists_candidate
  rw [contribution, hk]
  exact Candidate.entries_of_writes hwritten (hpreset ▸ hwrites)

theorem Due.contribution_of_value (h : r.Due s (r.selected? s menu) e address value size)
    (hwrites : (r.selected? s menu).bind (·.writes) = none) (count : Nat) :
    ∃ steps, r.contribution s menu count =
      ((DeviceWrite.ofAddress? address value size).map fun write =>
        (⟨r.code, write, steps⟩ : PlanEntry)).toList := by
  obtain ⟨k, hk, hwritten, hpreset, rfl, rfl, rfl, rfl⟩ := h.exists_candidate
  refine ⟨(k.steps menu (k.preset? menu)).map UInt64.toUInt32, ?_⟩
  rw [contribution, hk]
  exact Candidate.entries_of_value hwritten (hpreset ▸ hwrites)

/-- Any value but the default was checked against the width. -/
theorem Due.hexEquals_of_not_le {preset : Option Preset}
    (h : r.Due s preset e address value size) (hwide : ¬value ≤ sizeLimit size) :
    hexEquals e r.defaultHex := by
  rcases h.accepted with hequal | haccepts
  · exact hequal
  · by_contra hnot
    simp [accepts, hnot, h.value_eq, h.width_eq, hwide] at haccepts

end Register

namespace Catalog

/-- What a register adds to the plan after the registers before it: nothing unless it is due;
then the writes of its preset if there are any, or else its own write, which only a default can
be too wide for. -/
theorem compile_register {c : Catalog} (h : c.Distinct) (s : Settings)
    {before after : List Register} {r : Register} (hr : c.registers = before ++ r :: after) :
    let entriesOf (rs : List Register) := (Catalog.compile { c with registers := rs } s).1.entries
    let preset := r.selected? s (c.menu r).1
    ∃ own rest, entriesOf (before ++ [r]) = entriesOf before ++ own ∧
      (c.compile s).1.entries = entriesOf before ++ own ++ rest ∧
      (own ≠ [] → ∃ e address value size, r.Due s preset e address value size) ∧
      ∀ e address value size, r.Due s preset e address value size →
        (∀ writes, preset.bind (·.writes) = some writes →
          own.map PlanEntry.write = writes.filterMap PresetWrite.toDevice? ∧
            ∀ x ∈ own, x.sequence = [] ∧ x.code ≠ r.code) ∧
        (preset.bind (·.writes) = none →
          (value ≤ sizeLimit size →
            ∃ x, own = [x] ∧ x.code = r.code ∧ x.write.MadeFor address value size) ∧
          (¬value ≤ sizeLimit size → hexEquals e r.defaultHex ∧ own = [])) := by
  intro entriesOf preset
  have hnodup : ((before ++ r :: after).map Register.code).Nodup := hr ▸ h
  have hentries (rs : List Register) (hrs : (rs.map Register.code).Nodup) :
      entriesOf rs = contributions s (fun r => (c.menu r).1) rs 0 :=
    Distinct.compile_entries (c := { c with registers := rs }) hrs s
  have hbefore := hentries before (hnodup.sublist (by simp))
  have hupto := hentries (before ++ [r]) (hnodup.sublist (by simp))
  have hwhole := h.compile_entries s
  generalize hcount : (contributions s (fun r => (c.menu r).1) before 0).length = count
  refine ⟨r.contribution s (c.menu r).1 count,
    contributions s (fun r => (c.menu r).1) after
      (count + (r.contribution s (c.menu r).1 count).length), ?_, ?_,
    r.due_of_contribution_ne_nil,
    fun e address value size hdue => ⟨fun writes hwrites => ?_, fun hnone => ⟨fun hfits => ?_,
      fun hwide => ⟨hdue.hexEquals_of_not_le hwide, ?_⟩⟩⟩⟩
  · rw [hupto, hbefore, contributions_append, Nat.zero_add, hcount]
    simp [contributions]
  · rw [hwhole, hr, hbefore, contributions_append, Nat.zero_add, hcount, contributions,
      List.append_assoc]
  · rw [hdue.contribution_of_writes hwrites]
    refine ⟨Candidate.map_write_presetEntries .., fun x hx => ?_⟩
    obtain ⟨hsequence, hcode, _⟩ := Candidate.mem_presetEntries hx
    exact ⟨hsequence, hcode⟩
  · obtain ⟨steps, hown⟩ := hdue.contribution_of_value hnone count
    obtain ⟨write, hwrite⟩ := DeviceWrite.exists_ofAddress? address
      (r.isWidth_of_width? hdue.width_eq) hfits
    rw [hwrite] at hown
    exact ⟨_, hown, rfl, DeviceWrite.madeFor_of_ofAddress? hwrite⟩
  · obtain ⟨steps, hown⟩ := hdue.contribution_of_value hnone count
    have hwrite : DeviceWrite.ofAddress? address value size = none :=
      if_neg fun hfits => hwide hfits.2
    rw [hown, hwrite]
    rfl

theorem compile_register_of_preset :
    let lane : Register := ⟨"LANE", none, none, .text "0x20010", some (.int 2), some (.text "0x0"),
      none, false, .plain, none, none, some [.obj [("value", .str "0x3"), ("label", .str "Fast"),
        ("writes", .arr [
          .obj [("address", .str "0x20014"), ("value", .str "0x1"), ("size_bytes", .int 1)],
          .obj [("address", .str "0x20018"), ("value", .str "0x100"), ("size_bytes", .int 1)],
          .obj [("address", .str "0x20010"), ("value", .str "0x3"), ("size_bytes", .int 2)]])]],
      none⟩
    let lock : Register := ⟨"LOCK", none, none, .text "0x120400", some (.int 1), some (.text "0x1"),
      none, true, .plain, none, none, none, none⟩
    let c : Catalog := ⟨.null, [lane, lock], none, none, []⟩
    let s : Settings := ⟨CodeMap.empty.insert "LANE" "0x3", CodeMap.empty.insert "LANE" (),
      CodeMap.empty.insert "LANE" "Fast"⟩
    c.Distinct ∧ c.registers = [] ++ lane :: [lock] ∧
      ∃ own rest, (c.compile s).1.entries = own ++ rest ∧
        own.map PlanEntry.write = [⟨2, 0x14, 1, 1⟩, ⟨2, 0x10, 3, 2⟩] ∧
        ∀ x ∈ own, x.sequence = [] ∧ x.code ≠ "LANE" := by
  intro lane lock c s
  have hdistinct : c.Distinct := by decide
  have hdue : lane.Due s (lane.selected? s (c.menu lane).1) "0x3" 0x20010 3 2 :=
    ⟨.stored (by decide), by decide, by decide, by decide, by decide, .changed (by decide)⟩
  have hpreset : (lane.selected? s (c.menu lane).1).bind (·.writes) =
      some [⟨some 0x20014, some 1, some 1⟩, ⟨some 0x20018, some 0x100, some 1⟩,
        ⟨some 0x20010, some 3, some 2⟩] := by cbv
  have hdevice : ([⟨some 0x20014, some 1, some 1⟩, ⟨some 0x20018, some 0x100, some 1⟩,
      ⟨some 0x20010, some 3, some 2⟩] : List PresetWrite).filterMap PresetWrite.toDevice? =
        [⟨2, 0x14, 1, 1⟩, ⟨2, 0x10, 3, 2⟩] := by decide
  obtain ⟨own, rest, -, hwhole, -, hown⟩ :=
    compile_register hdistinct s (show c.registers = [] ++ lane :: [lock] from rfl)
  obtain ⟨hwrites, hentries⟩ := (hown _ _ _ _ hdue).1 _ hpreset
  rw [hdevice] at hwrites
  have hnone : (Catalog.compile { c with registers := [] } s).1.entries = [] := rfl
  beta_reduce at hwhole
  rw [hnone, List.nil_append] at hwhole
  exact ⟨hdistinct, rfl, own, rest, hwhole, hwrites, hentries⟩

/-- A register whose default is too wide for it is due all the same, and adds nothing. -/
theorem wide_default_adds_nothing :
    ∃ c r, ofDocument (.obj [("groups", .arr [.obj [("code", .str "g"), ("items", .arr [.obj
        [("code", .str "R"), ("address", .str "0x400"), ("size_bytes", .int 1),
          ("default", .str "0x1FF"), ("required", .bool true)]])]])]) = .ok c ∧
      c.registers = [r] ∧ c.Distinct ∧
      r.Due .empty (r.selected? .empty (c.menu r).1) "0x1FF" 0x400 0x1FF 1 ∧
      r.selected? .empty (c.menu r).1 = none ∧ (c.compile .empty).1.entries = [] := by
  let r : Register := ⟨"R", none, none, .text "0x400", some (.int 1), some (.text "0x1FF"), none,
    true, .plain, none, none, none, none⟩
  refine ⟨⟨_, [r], none, none, []⟩, r, by cbv, rfl, by decide, ?_, rfl, by decide⟩
  have hblank : ∀ v ∈ Settings.empty.value? r.code, v = "" := fun _ hv => by cases hv
  exact ⟨.initial hblank (by decide), by decide, by decide, by decide, by decide, .required rfl⟩

end Catalog

end RegisterImage
