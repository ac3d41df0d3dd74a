import Mathlib
import RegisterImage.Plan.Basic

/-!
# Encodable plans

A write is encodable when its size is a width, its segment has four bits and its value fits the
size. A plan is encodable when all its writes are and no step of a sequence is wider than the
register it goes to.

## Main definitions

* `DeviceWrite.Encodable`, `PlanEntry.Encodable`, `Plan.Encodable` — what a record can hold.
* `Plan.Encodable.writes` — every write of an encodable plan is encodable.
* `Plan.writes_of_unsequenced` — the writes of a plan in which no entry steps through values.
-/

namespace RegisterImage

structure DeviceWrite.Encodable (w : DeviceWrite) : Prop where
  isWidth : IsWidth w.size
  segment_le : w.segment ≤ 15
  value_le : w.value.toUInt64 ≤ sizeLimit w.size

structure PlanEntry.Encodable (e : PlanEntry) : Prop where
  write : e.write.Encodable
  step_le : ∀ v ∈ e.sequence, v.toUInt64 ≤ sizeLimit e.write.size

structure Plan.Encodable (p : Plan) : Prop where
  opening : ∀ w ∈ p.opening, w.Encodable
  entries : ∀ e ∈ p.entries, e.Encodable
  closing : ∀ w ∈ p.closing, w.Encodable

instance (w : DeviceWrite) : Decidable w.Encodable :=
  decidable_of_iff (IsWidth w.size ∧ w.segment ≤ 15 ∧ w.value.toUInt64 ≤ sizeLimit w.size)
    ⟨fun ⟨hsize, hsegment, hvalue⟩ => ⟨hsize, hsegment, hvalue⟩,
      fun ⟨hsize, hsegment, hvalue⟩ => ⟨hsize, hsegment, hvalue⟩⟩

instance (e : PlanEntry) : Decidable e.Encodable :=
  decidable_of_iff (e.write.Encodable ∧
      e.sequence.all fun v => v.toUInt64 ≤ sizeLimit e.write.size)
    ⟨fun ⟨hwrite, hsteps⟩ => ⟨hwrite, by simpa using hsteps⟩,
      fun ⟨hwrite, hsteps⟩ => ⟨hwrite, by simpa using hsteps⟩⟩

instance (p : Plan) : Decidable p.Encodable :=
  decidable_of_iff ((∀ w ∈ p.opening, w.Encodable) ∧ (∀ e ∈ p.entries, e.Encodable) ∧
      ∀ w ∈ p.closing, w.Encodable)
    ⟨fun ⟨hopening, hentries, hclosing⟩ => ⟨hopening, hentries, hclosing⟩,
      fun ⟨hopening, hentries, hclosing⟩ => ⟨hopening, hentries, hclosing⟩⟩

theorem DeviceWrite.Encodable.withValue {w : DeviceWrite} (h : w.Encodable) {v : UInt32}
    (hv : v.toUInt64 ≤ sizeLimit w.size) : (w.withValue v).Encodable :=
  ⟨h.isWidth, h.segment_le, hv⟩

theorem mem_of_mem_collapse {α : Type} [DecidableEq α] {x : α} {xs : List α}
    (h : x ∈ collapse xs) : x ∈ xs := by
  fun_induction collapse xs with
  | case1 => exact h
  | case2 => exact h
  | case3 y xs ih => exact List.mem_cons_of_mem _ (ih h)
  | case4 y z xs _ ih =>
    rcases List.mem_cons.1 h with rfl | h
    · exact List.mem_cons_self
    · exact List.mem_cons_of_mem _ (ih h)

theorem PlanEntry.Encodable.expand {e : PlanEntry} (h : e.Encodable) :
    ∀ w ∈ e.expand, w.Encodable := by
  intro w hw
  obtain ⟨v, hv, rfl⟩ := List.mem_map.1 hw
  refine h.write.withValue ?_
  rcases List.mem_append.1 (mem_of_mem_collapse hv) with hv | hv
  · exact h.step_le v hv
  · obtain rfl := List.mem_singleton.1 hv
    exact h.write.value_le

theorem Plan.Encodable.operations {p : Plan} (h : p.Encodable) :
    ∀ w ∈ p.operations, w.Encodable := by
  intro w hw
  obtain ⟨e, he, hw⟩ := List.mem_flatMap.1 hw
  exact (h.entries e he).expand w hw

theorem Plan.Encodable.writes {p : Plan} (h : p.Encodable) : ∀ w ∈ p.writes, w.Encodable := by
  intro w hw
  rcases List.mem_append.1 hw with hw | hw
  · rcases List.mem_append.1 hw with hw | hw
    · exact h.opening w (by simpa using hw)
    · exact h.operations w hw
  · exact h.closing w (by simpa using hw)

/-! ## Plans without sequences -/

namespace Plan

variable {plan : Plan}

theorem writes_of_unsequenced (h : ∀ e ∈ plan.entries, e.sequence = []) :
    plan.writes =
      plan.opening.toList ++ plan.entries.map PlanEntry.write ++ plan.closing.toList := by
  have hexpand : ∀ e ∈ plan.entries, e.expand = [e.write] := by
    intro e he
    simp [PlanEntry.expand, PlanEntry.values, h e he, collapse, DeviceWrite.withValue]
  rw [writes, operations, List.flatMap_congr hexpand, ← List.map_eq_flatMap]

theorem encodable_of_unsequenced (h : ∀ e ∈ plan.entries, e.sequence = [])
    (hwrites : ∀ w ∈ plan.writes, w.Encodable) : plan.Encodable := by
  rw [writes_of_unsequenced h] at hwrites
  refine ⟨fun w hw => hwrites w ?_, fun e he => ⟨hwrites e.write ?_, ?_⟩,
    fun w hw => hwrites w ?_⟩
  · simp [Option.mem_def.1 hw]
  · exact List.mem_append_left _ (List.mem_append_right _ (List.mem_map_of_mem he))
  · simp [h e he]
  · simp [Option.mem_def.1 hw]

end Plan

end RegisterImage
