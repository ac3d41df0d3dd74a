import RegisterImage.Command.Run

/-!
# Runs of commands

A command goes step by step. A step that fails ends the run; one that succeeds hands its value and
its messages to the next one. What a run ends with is therefore known from what its steps end with,
and the messages can be left out of account.

## Main definitions

* `Run.run_bind` — a run of two steps.
* `Run.Gives` — a value that some run of a step ends with.
-/

namespace RegisterImage.Run

variable {α β : Type} {step : Run α} {next : α → Run β} {x : α} {y : β}

theorem run_bind (step : Run α) (next : α → Run β) (before : List Message) :
    ((step >>= next).run before).run =
      match (step.run before).run with
      | (.ok x, between) => ((next x).run between).run
      | (.error e, between) => (.error e, between) := by
  change (ExceptT.bindCont next (step.run before).run.1 (step.run before).run.2).run = _
  rcases (step.run before).run with ⟨e | x, between⟩ <;> rfl

/-- A step that succeeds hands its value and its messages to the next one. -/
theorem bind_of_ok {before after : List Message} (h : (step.run before).run = (.ok x, after)) :
    ((step >>= next).run before).run = ((next x).run after).run := by
  rw [run_bind, h]

/-! ## Values of runs -/

/-- A value that some run of a step ends with. -/
def Gives (step : Run α) (x : α) : Prop :=
  ∃ before after, (step.run before).run = (.ok x, after)

/-- A run of two steps is a run of each of them. -/
theorem Gives.exists_of_bind (h : (step >>= next).Gives y) :
    ∃ x, step.Gives x ∧ (next x).Gives y := by
  obtain ⟨before, after, h⟩ := h
  rw [run_bind] at h
  rcases hstep : (step.run before).run with ⟨e | x, between⟩ <;> rw [hstep] at h
  · cases h
  · exact ⟨x, ⟨before, between, hstep⟩, between, after, h⟩

/-- A part of the value tells that there is one. -/
theorem exists_gives_of_map {f : α → β} (before : List Message)
    (h : (step.run before).run.1.map f = .ok y) : ∃ x, step.Gives x ∧ f x = y := by
  rcases hrun : (step.run before).run with ⟨e | x, after⟩ <;> rw [hrun] at h
  · cases h
  · exact ⟨x, ⟨before, after, hrun⟩, Except.ok.inj h⟩

theorem gives_pure_iff {x y : α} : (pure x : Run α).Gives y ↔ x = y := by
  constructor
  · rintro ⟨before, after, h⟩
    exact Except.ok.inj (congrArg Prod.fst h)
  · rintro rfl
    exact ⟨[], [], rfl⟩

theorem not_gives_throw (e : Failure) : ¬(throw e : Run α).Gives x := by
  rintro ⟨before, after, h⟩
  cases congrArg Prod.fst h

end RegisterImage.Run
