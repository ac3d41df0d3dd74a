import RegisterImage.Proofs.Menu.Spans
import RegisterImage.Proofs.Plan.Compiled
import RegisterImage.Proofs.Plan.Writes
import RegisterImage.Proofs.Settings.ReadBack

/-!
# Intermediate values

A register steps through the sequence of its preset, and then through those of its fields or bits,
before it is written with its value. A step of a field changes the bits of the field and no others,
and a step that does not fit leaves nothing behind.

## Main definitions

* `SpanStep`, `SpanStep.Gives` — a declared step, and the value that it makes of another.
* `Taken` — the values that steps make one after the other.
* `Register.declaredSteps` — the steps that the fields or the bits of a register declare.
* `Catalog.compile_steps` — what stands before the value in the entries of a plan.
-/

namespace RegisterImage

/-! ## Steps of spans -/

/-- A number for the bits from `lo` to `hi`. -/
structure SpanStep where
  lo : Nat
  hi : Nat
  number : UInt64
  deriving DecidableEq, Repr

/-- The value that a step makes of another: its number stands between the bits, all other bits are
as before, and a register of the size can have it. -/
structure SpanStep.Gives (step : SpanStep) (size : UInt8) (value next : UInt64) : Prop where
  outside : ∀ i, ¬(step.lo ≤ i ∧ i ≤ step.hi) → next.toNat.testBit i = value.toNat.testBit i
  within : numberAt step.lo step.hi next = step.number.toNat
  fits : next ≤ sizeLimit size

/-- The values that steps make of one value, in the order of the steps. Those that make none are
dropped. -/
inductive Taken (size : UInt8) (value : UInt64) : List SpanStep → List UInt64 → Prop where
  | nil : Taken size value [] []
  | taken {step : SpanStep} {next : UInt64} {steps : List SpanStep} {nexts : List UInt64} :
      step.Gives size value next → Taken size value steps nexts →
      Taken size value (step :: steps) (next :: nexts)
  | dropped {step : SpanStep} {steps : List SpanStep} {nexts : List UInt64} :
      (∀ next, ¬step.Gives size value next) → Taken size value steps nexts →
      Taken size value (step :: steps) nexts

/-! ## Declared steps -/

/-- The steps of the choice that the bits of a field select. -/
def Field.declaredSteps (f : Field) (value : UInt64) : List SpanStep :=
  let selected := f.choices.find? fun choice =>
    choice.value.toNat = numberAt f.span.lo f.span.hi value
  ((selected.bind (·.sequence)).getD []).map fun number => ⟨f.span.lo, f.span.hi, number⟩

/-- The steps of the present state of a bit. -/
def BitLabels.declaredSteps (labels : BitLabels) (bit : Nat) (value : UInt64) : List SpanStep :=
  ((labels.sequenceFor (value.toNat.testBit bit)).getD []).map fun number => ⟨bit, bit, number⟩

namespace Register

/-- The steps of the fields in declared order, or of the bits from the lowest up to the width. -/
def declaredSteps (r : Register) (menu : Menu) (value : UInt64) (size : UInt8) : List SpanStep :=
  match r.kind with
  | .plain => []
  | .subfield => menu.fields.flatMap (·.declaredSteps value)
  | .bitfield =>
    if r.bitFields.isSome then
      (menu.bits.zipIdx.take (8 * size.toNat)).flatMap fun (labels, bit) =>
        labels.declaredSteps bit value
    else []

/-- The sequence of a preset: its own, or that of the register, or the shared one. -/
def presetSequence (r : Register) (menu : Menu) : Option Preset → List UInt64
  | none => []
  | some p =>
    (p.sequence <|> r.sequence.elim menu.sharedSequence Json.sequence?).getD []

end Register

/-! ## Taken steps -/

theorem SpanStep.gives_iff {span : BitSpan} {number value next : UInt64} {size : UInt8} :
    (SpanStep.mk span.lo span.hi number).Gives size value next ↔
      number ≤ span.limit ∧ next = span.insert value number ∧ next ≤ sizeLimit size := by
  constructor
  · intro h
    refine ⟨?_, BitSpan.eq_insert_of_numberAt h.outside h.within, h.fits⟩
    rw [span.le_limit_iff, ← h.within]
    exact numberAt_lt ..
  · rintro ⟨hlimit, rfl, hfits⟩
    exact ⟨span.testBit_insert_outside value number, BitSpan.numberAt_insert value hlimit, hfits⟩

namespace Taken

variable {size : UInt8} {value : UInt64} {steps steps' : List SpanStep}
  {nexts nexts' : List UInt64}

theorem append (h : Taken size value steps nexts) (h' : Taken size value steps' nexts') :
    Taken size value (steps ++ steps') (nexts ++ nexts') := by
  induction h with
  | nil => exact h'
  | taken hgives _ ih => exact .taken hgives ih
  | dropped hnone _ ih => exact .dropped hnone ih

theorem flatMap {α : Type} {xs : List α} {f : α → List SpanStep} {g : α → List UInt64}
    (h : ∀ x ∈ xs, Taken size value (f x) (g x)) :
    Taken size value (xs.flatMap f) (xs.flatMap g) := by
  induction xs with
  | nil => exact .nil
  | cons x xs ih =>
    obtain ⟨hx, hxs⟩ := List.forall_mem_cons.1 h
    exact hx.append (ih hxs)

/-- Every value was made by one of the steps. -/
theorem exists_gives (h : Taken size value steps nexts) {next : UInt64} (hnext : next ∈ nexts) :
    ∃ step ∈ steps, step.Gives size value next := by
  induction h with
  | nil => cases hnext
  | taken hgives _ ih =>
    rcases List.mem_cons.1 hnext with rfl | hlater
    · exact ⟨_, List.mem_cons_self, hgives⟩
    · obtain ⟨step, hstep, hgives⟩ := ih hlater
      exact ⟨step, List.mem_cons_of_mem _ hstep, hgives⟩
  | dropped _ _ ih =>
    obtain ⟨step, hstep, hgives⟩ := ih hnext
    exact ⟨step, List.mem_cons_of_mem _ hstep, hgives⟩

/-- Numbers that are too large for the span are dropped before they are inserted, and values that
are too large for the register afterwards. -/
theorem insert (span : BitSpan) (size : UInt8) (value : UInt64) (numbers : List UInt64) :
    Taken size value (numbers.map fun number => ⟨span.lo, span.hi, number⟩)
      (((numbers.filter (· ≤ span.limit)).map (span.insert value)).filter
        (· ≤ sizeLimit size)) := by
  induction numbers with
  | nil => exact .nil
  | cons number numbers ih =>
    rw [List.map_cons]
    by_cases hlimit : number ≤ span.limit
    · rw [List.filter_cons_of_pos (by simpa using hlimit), List.map_cons]
      by_cases hfits : span.insert value number ≤ sizeLimit size
      · rw [List.filter_cons_of_pos (by simpa using hfits)]
        exact .taken (SpanStep.gives_iff.2 ⟨hlimit, rfl, hfits⟩) ih
      · rw [List.filter_cons_of_neg (by simpa using hfits)]
        refine .dropped (fun next hgives => ?_) ih
        obtain ⟨-, rfl, hfits'⟩ := SpanStep.gives_iff.1 hgives
        exact hfits hfits'
    · rw [List.filter_cons_of_neg (by simpa using hlimit)]
      exact .dropped (fun next hgives => hlimit (SpanStep.gives_iff.1 hgives).1) ih

end Taken

/-! ## Steps of candidates -/

theorem Field.selected?_eq (f : Field) (value : UInt64) : f.selected? value =
    f.choices.find? fun choice => choice.value.toNat = numberAt f.span.lo f.span.hi value := by
  unfold selected?
  congr 1
  funext choice
  rw [← f.span.toNat_extract, decide_eq_decide.2 UInt64.toNat_inj.symm]

theorem lt_of_mem_take_zipIdx {α : Type} {xs : List α} {n : Nat} {p : α × Nat}
    (h : p ∈ xs.zipIdx.take n) : p.2 < n := by
  obtain ⟨i, hi, rfl⟩ := List.mem_take_iff_getElem.1 h
  rw [List.getElem_zipIdx]
  simpa using (Nat.lt_min.1 hi).1

namespace Candidate

/-- To force a bit is to insert a number of one bit. -/
theorem forceBit_eq (value : UInt64) {bit : Nat} (h : bit < 64) (number : UInt64) :
    forceBit value bit number =
      if number ≤ (BitSpan.single bit h).limit then
        some ((BitSpan.single bit h).insert value number)
      else none := by
  rw [forceBit, BitSpan.limit_single]
  by_cases hzero : number = 0
  · subst hzero
    rw [if_pos rfl, if_pos (by decide), BitSpan.insert_single_zero]
  · rw [if_neg hzero]
    by_cases hone : number = 1
    · subst hone
      rw [if_pos rfl, if_pos (by decide), BitSpan.insert_single_one]
    · rw [if_neg hone, if_neg]
      intro hle
      have hle : number.toNat ≤ 1 := UInt64.le_iff_toNat_le.1 hle
      have hzero : number.toNat ≠ 0 := fun h => hzero (UInt64.toNat_inj.1 h)
      exact hone (UInt64.toNat_inj.1 (Nat.le_antisymm hle (Nat.pos_of_ne_zero hzero)))

theorem filterMap_forceBit (value : UInt64) {bit : Nat} (h : bit < 64) (numbers : List UInt64) :
    numbers.filterMap (forceBit value bit) =
      (numbers.filter (· ≤ (BitSpan.single bit h).limit)).map
        ((BitSpan.single bit h).insert value) := by
  rw [← List.filterMap_eq_map', List.filterMap_filter]
  refine List.filterMap_congr fun number _ => ?_
  rw [forceBit_eq value h]
  simp

theorem isSet_iff (value : UInt64) {bit : Nat} (h : bit < 64) :
    (value >>> UInt64.ofNat bit) &&& 1 = 1 ↔ value.toNat.testBit bit = true := by
  have hshift : (UInt64.ofNat bit).toNat = bit := (BitSpan.single bit h).toNat_shift
  rw [← UInt64.toNat_inj, UInt64.toNat_and, UInt64.toNat_shiftRight, hshift, Nat.mod_eq_of_lt h,
    Nat.testBit_eq_decide_div_mod_eq, decide_eq_true_iff, Nat.shiftRight_eq_div_pow]
  change _ &&& 1 = 1 ↔ _
  rw [Nat.and_one_is_mod]

variable (k : Candidate)

theorem taken_fieldSteps (f : Field) :
    Taken k.width k.value (f.declaredSteps k.value) (k.fieldSteps f) := by
  unfold Field.declaredSteps fieldSteps
  rw [f.selected?_eq]
  exact Taken.insert f.span k.width k.value _

theorem taken_bitSteps {bit : Nat} (h : bit < 64) (labels : BitLabels) :
    Taken k.width k.value (labels.declaredSteps bit k.value) (k.bitSteps bit labels) := by
  unfold BitLabels.declaredSteps bitSteps
  simp only [filterMap_forceBit k.value h, isSet_iff k.value h, Bool.decide_eq_true]
  exact Taken.insert (BitSpan.single bit h) k.width k.value _

theorem presetSteps_eq (menu : Menu) (preset : Option Preset) :
    k.presetSteps menu preset =
      (k.register.presetSequence menu preset).filter (· ≤ sizeLimit k.width) := by
  cases preset with
  | none => rfl
  | some p =>
    dsimp only [presetSteps, Register.presetSequence]
    cases p.sequence <;> cases k.register.sequence <;> rfl

theorem taken_steps (hwidth : IsWidth k.width) (menu : Menu) (preset : Option Preset) :
    ∃ own, k.steps menu preset =
        (k.register.presetSequence menu preset).filter (· ≤ sizeLimit k.width) ++ own ∧
      Taken k.width k.value (k.register.declaredSteps menu k.value k.width) own := by
  refine ⟨_, congrArg (· ++ _) (k.presetSteps_eq menu preset), ?_⟩
  unfold Register.declaredSteps
  cases k.register.kind with
  | plain => exact .nil
  | subfield => exact Taken.flatMap fun f _ => k.taken_fieldSteps f
  | bitfield =>
    have hbits : 8 * k.width.toNat ≤ 64 := by
      rcases hwidth with h | h | h <;> rw [h] <;> decide
    dsimp only
    split
    · exact Taken.flatMap fun (labels, bit) hbit =>
        k.taken_bitSteps ((lt_of_mem_take_zipIdx hbit).trans_le hbits) labels
    · exact .nil

end Candidate

/-! ## Compiled entries -/

/-- The entry of a register whose preset has no writes of its own is the write of its value to its
address. Before the value stand the numbers of the sequence of the preset, and then what the steps
of the fields or bits make of the value. -/
theorem Register.steps_of_mem_contribution {r : Register} {s : Settings} {menu : Menu}
    {count : Nat} {e : PlanEntry} (he : e ∈ r.contribution s menu count)
    (hplain : r.WritesItself s menu) :
    ∃ text address value size own,
      r.Due s (r.selected? s menu) text address value size ∧ e.code = r.code ∧
      e.write.MadeFor address value size ∧
      e.sequence.map UInt32.toUInt64 =
        (r.presetSequence menu (r.selected? s menu)).filter (· ≤ sizeLimit size) ++ own ∧
      Taken size value (r.declaredSteps menu value size) own := by
  obtain ⟨k, hk, hentry⟩ := candidate?_of_mem_contribution he
  obtain ⟨text, address, value, size, hdue⟩ := due_of_contribution_ne_nil (List.ne_nil_of_mem he)
  obtain ⟨k', hk', hwritten, hpreset, rfl, rfl, rfl, rfl⟩ := hdue.exists_candidate
  obtain rfl := Option.some.inj (hk.symm.trans hk')
  have hwidth := k.register.isWidth_of_width? hdue.width_eq
  obtain ⟨own, hsteps, htaken⟩ := k.taken_steps hwidth menu (k.preset? menu)
  rw [Candidate.entries_of_value hwritten (hpreset ▸ hplain), Option.mem_toList,
    Option.map_eq_some_iff] at hentry
  obtain ⟨write, hwrite, rfl⟩ := hentry
  refine ⟨text, k.address, k.value, k.width, own, hdue, rfl,
    DeviceWrite.madeFor_of_ofAddress? hwrite, ?_, htaken⟩
  rw [← hpreset, ← hsteps]
  exact Candidate.map_toUInt64_steps hwidth menu _

namespace Catalog

/-- A plan is what its registers contribute, one after the other. Where the preset of a register has
no writes of its own, the register is written with its value last, and before the value stand the
numbers of the preset's sequence and then what the steps of the fields or bits make of the value,
each in declared order and without those that do not fit. -/
theorem compile_steps (c : Catalog) (s : Settings) :
    let menu (r : Register) := ((c.compile s).2.menu r).1
    (c.compile s).1.entries = contributions s menu c.registers 0 ∧
    (c.Distinct → c.Coherent → ∀ r ∈ c.registers, menu r = Menu.ofRegister r) ∧
    ∀ r ∈ c.registers, r.WritesItself s (menu r) →
      ∀ count, ∀ e ∈ r.contribution s (menu r) count, ∃ text address value size own,
        r.Due s (r.selected? s (menu r)) text address value size ∧ e.code = r.code ∧
        e.write.MadeFor address value size ∧
        e.sequence.map UInt32.toUInt64 =
          (r.presetSequence (menu r) (r.selected? s (menu r))).filter (· ≤ sizeLimit size) ++ own ∧
        Taken size value (r.declaredSteps (menu r) value size) own ∧
        (∀ next ∈ own, ∃ step ∈ r.declaredSteps (menu r) value size,
          step.Gives size value next) ∧
        (∀ w ∈ e.expand, w.address = e.write.address ∧ w.size = size ∧
          (address ≤ 0xFFFFF → w.Reaches r)) ∧
        e.expand.getLast? = some e.write := by
  intro menu
  refine ⟨compile_entries c s, fun hdistinct hcoherent r hr => ?_, fun r _ hplain count e he => ?_⟩
  · exact (hdistinct.alike_compile s).coherent hcoherent r hr
  · obtain ⟨text, address, value, size, own, hdue, hcode, hmade, hsteps, htaken⟩ :=
      Register.steps_of_mem_contribution he hplain
    refine ⟨text, address, value, size, own, hdue, hcode, hmade, hsteps, htaken,
      fun _ hnext => htaken.exists_gives hnext, fun w hw => ?_, e.getLast?_expand⟩
    have hslot := PlanEntry.slot_of_mem_expand hw
    obtain ⟨haddress, hsize⟩ := Prod.mk.inj hslot
    refine ⟨haddress, hsize.trans hmade.size_eq, fun hle => ?_⟩
    rw [DeviceWrite.Reaches, hslot]
    exact Register.slot?_of_madeFor hmade hle hdue.address_eq hdue.width_eq

/-- One field is written the wrong way round and one reaches beyond the width. Each of them, and the
preset, has a step that does not fit. -/
theorem compile_steps_of_fields :
    let choice (value : Int) (steps : List Int) : Json :=
      .obj [("value", .int value), ("sequence", .arr (steps.map .int))]
    let field (bits : String) (choice : Json) : SubField :=
      ⟨none, some (.text bits), some (.arr [choice]), none, none, none, none, none⟩
    let r : Register := ⟨"MODE", none, none, .text "0x400", some (.int 1), some (.text "0x0"),
      none, false, .subfield, none,
      some [field "0:2" (choice 5 [1, 9, 2]), field "9:4" (choice 0 [3, 16])],
      some [.obj [("value", .str "0x5"), ("label", .str "Slow"),
        ("sequence", .arr [.int 7, .int 300])]], none⟩
    let c : Catalog := ⟨.null, [r], none, none, []⟩
    let s : Settings := ⟨CodeMap.insert ∅ "MODE" "0x5", CodeMap.insert ∅ "MODE" (),
      CodeMap.insert ∅ "MODE" "Slow"⟩
    let e : PlanEntry := ⟨"MODE", ⟨0, 0x400, 5, 1⟩, [7, 1, 2, 0x35]⟩
    (c.compile s).1.entries = [e] ∧ c.Distinct ∧ c.Coherent ∧
      r.WritesItself s (Menu.ofRegister r) ∧ ∃ own,
        e.sequence.map UInt32.toUInt64 = [7] ++ own ∧
        Taken 1 5 [⟨0, 2, 1⟩, ⟨0, 2, 9⟩, ⟨0, 2, 2⟩, ⟨4, 9, 3⟩, ⟨4, 9, 16⟩] own ∧
        (∀ w ∈ e.expand, w.Reaches r) ∧ e.expand.getLast? = some ⟨0, 0x400, 5, 1⟩ := by
  intro choice field r c s e
  have hentries : (c.compile s).1.entries = [e] := by decide +kernel
  have hdistinct : c.Distinct := by decide
  have hcoherent : c.Coherent := coherent_of_memo_eq_nil rfl
  have hplain : r.WritesItself s (Menu.ofRegister r) := by
    unfold Register.WritesItself
    decide +kernel
  have he : e ∈ r.contribution s (Menu.ofRegister r) 0 := by decide +kernel
  have hsequence : (r.presetSequence (Menu.ofRegister r)
      (r.selected? s (Menu.ofRegister r))).filter (· ≤ sizeLimit 1) = [7] := by decide +kernel
  have hdeclared : r.declaredSteps (Menu.ofRegister r) 5 1 =
      [⟨0, 2, 1⟩, ⟨0, 2, 9⟩, ⟨0, 2, 2⟩, ⟨4, 9, 3⟩, ⟨4, 9, 16⟩] := by decide +kernel
  refine ⟨hentries, hdistinct, hcoherent, hplain, ?_⟩
  obtain ⟨-, hmenu, hsteps⟩ := compile_steps c s
  have hself : r ∈ c.registers := List.mem_singleton_self r
  have hsteps := hsteps r hself
  rw [hmenu hdistinct hcoherent r hself] at hsteps
  obtain ⟨text, address, value, size, own, hdue, -, hmade, hown, htaken, -, hexpand, hlast⟩ :=
    hsteps hplain 0 e he
  obtain rfl : 5 = value := hmade.value_eq
  obtain rfl : 1 = size := hmade.size_eq
  obtain rfl : 0x400 = address := Option.some.inj hdue.address_eq
  rw [hsequence] at hown
  rw [hdeclared] at htaken
  exact ⟨own, hown, htaken, fun w hw => (hexpand w hw).2.2 (by decide), hlast⟩

end Catalog

end RegisterImage
