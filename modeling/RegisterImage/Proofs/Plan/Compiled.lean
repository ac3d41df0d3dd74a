import RegisterImage.Proofs.Plan.Due

/-!
# Compiled plans are encodable

Whatever a document declares and whatever has been set, the compiled plan has only writes that a
record can hold. Steps are computed as 64-bit words and filtered by the limit of the register, so
that narrowing them loses nothing.

## Main definitions

* `Candidate.le_limit_of_mem_steps` — no step is wider than its register.
* `Catalog.Loaded.encodable` — the opening and the closing write of a catalog are encodable.
* `Catalog.compile_encodable` — compiled plans are encodable, and the steps of registers are exact.
-/

namespace RegisterImage

namespace Candidate

variable {k : Candidate} {menu : Menu} {preset : Option Preset}

/-! ## Steps -/

theorem le_limit_of_mem_presetSteps {step : UInt64} (h : step ∈ k.presetSteps menu preset) :
    step ≤ k.limit := by
  unfold presetSteps at h
  cases preset with
  | none => exact absurd h List.not_mem_nil
  | some p => exact of_decide_eq_true (List.mem_filter.1 h).2

theorem le_limit_of_mem_fieldSteps {f : Field} {step : UInt64} (h : step ∈ k.fieldSteps f) :
    step ≤ k.limit :=
  of_decide_eq_true (List.mem_filter.1 h).2

theorem le_limit_of_mem_bitSteps {bit : Nat} {labels : BitLabels} {step : UInt64}
    (h : step ∈ k.bitSteps bit labels) : step ≤ k.limit :=
  of_decide_eq_true (List.mem_filter.1 h).2

theorem le_limit_of_mem_steps {step : UInt64} (h : step ∈ k.steps menu preset) :
    step ≤ k.limit := by
  rcases List.mem_append.1 h with h | h
  · exact le_limit_of_mem_presetSteps h
  · cases hkind : k.register.kind with
    | plain => simp [hkind] at h
    | subfield =>
      simp only [hkind] at h
      obtain ⟨f, _, h⟩ := List.mem_flatMap.1 h
      exact le_limit_of_mem_fieldSteps h
    | bitfield =>
      simp only [hkind] at h
      split at h
      · obtain ⟨⟨labels, bit⟩, _, h⟩ := List.mem_flatMap.1 h
        exact le_limit_of_mem_bitSteps h
      · exact absurd h List.not_mem_nil

/-! ## Entries -/

/-- An entry is a write of the preset, or the write of the value after its steps. The code tells
which of them it is. -/
theorem mem_entries {count : Nat} {e : PlanEntry} (h : e ∈ k.entries menu count) :
    (e.code ≠ k.register.code ∧ e.sequence = [] ∧
      ∃ w : PresetWrite, w.toDevice? = some e.write) ∨
    (e.code = k.register.code ∧ DeviceWrite.ofAddress? k.address k.value k.width = some e.write ∧
      e.sequence = (k.steps menu (k.preset? menu)).map UInt64.toUInt32) := by
  unfold entries at h
  simp only at h
  split at h
  · split at h
    · obtain ⟨hsequence, hcode, w, _, hw⟩ := mem_presetEntries h
      exact .inl ⟨hcode, hsequence, w, hw⟩
    · split at h
      · rename_i write hwrite
        obtain rfl := List.mem_singleton.1 h
        exact .inr ⟨rfl, hwrite, rfl⟩
      · exact absurd h List.not_mem_nil
  · exact absurd h List.not_mem_nil

end Candidate

theorem PresetWrite.encodable_of_toDevice? {w : PresetWrite} {write : DeviceWrite}
    (h : w.toDevice? = some write) : write.Encodable := by
  simp only [toDevice?, Option.bind_eq_bind, Option.bind_eq_some_iff] at h
  obtain ⟨size, _, address, _, value, _, hmade⟩ := h
  split at hmade
  · exact DeviceWrite.encodable_of_ofAddress? hmade
  · cases hmade

/-- Narrowing the steps of a candidate loses no bit. -/
theorem Candidate.map_toUInt64_steps {k : Candidate} (hwidth : IsWidth k.width) (menu : Menu)
    (preset : Option Preset) :
    ((k.steps menu preset).map UInt64.toUInt32).map UInt32.toUInt64 = k.steps menu preset := by
  rw [List.map_map]
  refine (List.map_congr_left fun step hstep => ?_).trans (List.map_id _)
  exact toUInt64_toUInt32 hwidth (le_limit_of_mem_steps hstep)

/-- The steps of an entry before the value are those of its candidate, with all their bits. The
writes of a preset have none. -/
theorem Candidate.steps_of_mem_entries {k : Candidate} {menu : Menu} {count : Nat}
    {e : PlanEntry} (h : e ∈ k.entries menu count) :
    (e.code = k.register.code ∧
      e.sequence.map UInt32.toUInt64 = k.steps menu (k.preset? menu)) ∨
    (e.code ≠ k.register.code ∧ e.sequence = []) := by
  rcases mem_entries h with ⟨hcode, hsequence, _⟩ | ⟨hcode, hmade, hsequence⟩
  · exact .inr ⟨hcode, hsequence⟩
  · have hwidth := (DeviceWrite.encodable_of_ofAddress? hmade).isWidth
    rw [(DeviceWrite.madeFor_of_ofAddress? hmade).size_eq] at hwidth
    rw [hsequence]
    exact .inl ⟨hcode, map_toUInt64_steps hwidth menu _⟩

theorem Candidate.encodable_of_mem_entries {k : Candidate} {menu : Menu} {count : Nat}
    {e : PlanEntry} (h : e ∈ k.entries menu count) : e.Encodable := by
  rcases mem_entries h with ⟨-, hsequence, w, hw⟩ | ⟨-, hmade, hsequence⟩
  · refine ⟨PresetWrite.encodable_of_toDevice? hw, ?_⟩
    rw [hsequence]
    exact fun _ hv => absurd hv List.not_mem_nil
  · have hwrite := DeviceWrite.encodable_of_ofAddress? hmade
    have hsize := (DeviceWrite.madeFor_of_ofAddress? hmade).size_eq
    refine ⟨hwrite, fun v hv => ?_⟩
    rw [hsequence] at hv
    obtain ⟨step, hstep, rfl⟩ := List.mem_map.1 hv
    have hle := le_limit_of_mem_steps hstep
    rw [hsize, toUInt64_toUInt32 (hsize ▸ hwrite.isWidth) hle]
    exact hle

namespace Catalog

/-! ## Opening and closing writes -/

theorem encodable_of_ofDocument {document : Json} {c : Catalog}
    (h : ofDocument document = .ok c) :
    (∀ w ∈ c.opening, w.Encodable) ∧ ∀ w ∈ c.closing, w.Encodable := by
  unfold ofDocument at h
  split at h
  · obtain rfl := Except.ok.inj h
    constructor <;> intro w hw
    · obtain ⟨j, _, hj⟩ := Option.bind_eq_some_iff.1 hw
      exact DeviceWrite.encodable_of_ofJson? hj
    · obtain ⟨j, _, hj⟩ := Option.bind_eq_some_iff.1 hw
      exact DeviceWrite.encodable_of_ofJson? hj
  · cases h

theorem Loaded.encodable {c : Catalog} (h : c.Loaded) :
    (∀ w ∈ c.opening, w.Encodable) ∧ ∀ w ∈ c.closing, w.Encodable := by
  induction h with
  | ofDocument h => exact encodable_of_ofDocument h
  | menu r _ ih => exact ih
  | @replace c c' r _ h ih =>
    unfold Catalog.replace at h
    split at h
    · obtain rfl := Except.ok.inj h
      exact ih
    · cases h

/-! ## Plans -/

theorem encodable_of_mem_compile {c : Catalog} {s : Settings} {e : PlanEntry}
    (h : e ∈ (c.compile s).1.entries) : e.Encodable := by
  obtain ⟨r, _, count, h⟩ := mem_compile h
  obtain ⟨k, _, h⟩ := Register.candidate?_of_mem_contribution h
  exact k.encodable_of_mem_entries h

theorem encodable_compile_of {c : Catalog} (hopening : ∀ w ∈ c.opening, w.Encodable)
    (hclosing : ∀ w ∈ c.closing, w.Encodable) (s : Settings) : (c.compile s).1.Encodable :=
  ⟨hopening, fun _ he => encodable_of_mem_compile he, hclosing⟩

/-- Plans for the catalog of a document have encodable writes and exact steps, whatever the
settings are and whatever menus are remembered. The entry of a register has the steps that the
register takes with the menu that is remembered for it, and no bit of them is lost. -/
theorem compile_encodable (es : Entries) :
    ∃ c, ofDocument (.obj es) = .ok c ∧ ∀ (memo : MenuMemo) (s : Settings),
      let compiled := Catalog.compile { c with memo } s
      let menu (r : Register) := (compiled.2.menu r).1
      compiled.1.Encodable ∧ (∀ w ∈ compiled.1.operations, w.Encodable) ∧
        compiled.1.entries = contributions s menu c.registers 0 ∧
        ∀ r ∈ c.registers, ∀ count, ∀ e ∈ r.contribution s (menu r) count, ∃ k,
          r.candidate? (s.value? r.code) (s.preset? r.code) = some k ∧
            ((e.code = r.code ∧
              e.sequence.map UInt32.toUInt64 = k.steps (menu r) (k.preset? (menu r))) ∨
            (e.code ≠ r.code ∧ e.sequence = [])) := by
  obtain ⟨c, hc⟩ : ∃ c, ofDocument (.obj es) = .ok c := ⟨_, rfl⟩
  refine ⟨c, hc, fun memo s => ?_⟩
  intro compiled menu
  obtain ⟨hopening, hclosing⟩ := encodable_of_ofDocument hc
  have hplan := encodable_compile_of (c := { c with memo }) hopening hclosing s
  refine ⟨hplan, hplan.operations, compile_entries { c with memo } s, fun r _ count e he => ?_⟩
  obtain ⟨k, hk, he⟩ := Register.candidate?_of_mem_contribution he
  have hsteps := k.steps_of_mem_entries he
  rw [Register.register_of_candidate? hk] at hsteps
  exact ⟨k, hk, hsteps⟩

end Catalog

end RegisterImage
