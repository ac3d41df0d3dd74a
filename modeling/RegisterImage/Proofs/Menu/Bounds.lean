import RegisterImage.Catalog
import RegisterImage.Proofs.Menu.Spans

/-!
# Ranges of fields

Each bound of a field is the first of its candidates that reads as a number: those of the subfield,
then that of a register that is taken apart into fields. The upper bound is brought down to what
the span can hold. The lower one is not, so that it may exceed the span and the upper bound.

## Main definitions

* `FirstNumber` — the first candidate that reads as a number, or else a default.
* `SubField.candidates` — the candidates for a bound, in the order in which they are tried.
* `bounds_of_ofSubField?` — the bounds of a field, and when both are within its span.
-/

namespace RegisterImage

/-! ## Candidates for a bound -/

/-- The first candidate that is there and reads as a number. -/
inductive FirstNumber (default : UInt64) : List (Option Scalar) → UInt64 → Prop where
  | default : FirstNumber default [] default
  | found {x : Scalar} {n : UInt64} (rest : List (Option Scalar)) :
      x.number? = some n → FirstNumber default (some x :: rest) n
  | unreadable {x : Scalar} {rest : List (Option Scalar)} {n : UInt64} :
      x.number? = none → FirstNumber default rest n → FirstNumber default (some x :: rest) n
  | absent {rest : List (Option Scalar)} {n : UInt64} :
      FirstNumber default rest n → FirstNumber default (none :: rest) n

/-- The candidates for one side of the range of a subfield. The range of the register comes last,
and only when the register is taken apart into fields. -/
def SubField.candidates (sf : SubField) (r : Register) (side : ValueBounds → Option Scalar)
    (long short : SubField → Option Scalar) : List (Option Scalar) :=
  [sf.range.bind side, long sf, short sf, if r.kind = .subfield then r.range.bind side else none]

theorem firstNumber_getD (default : UInt64) (bounds : List (Option Scalar)) :
    FirstNumber default bounds ((Field.firstBound? bounds).getD default) := by
  induction bounds with
  | nil => exact .default
  | cons bound bounds ih =>
    unfold Field.firstBound? at ih ⊢
    rw [List.findSome?_cons]
    cases bound with
    | none => exact .absent ih
    | some x =>
      cases hx : x.number? with
      | none =>
        rw [Option.bind_some, hx]
        exact .unreadable hx ih
      | some n =>
        rw [Option.bind_some, hx]
        exact .found bounds hx

/-- A subfield with a readable span is a field. Its bounds are the first that read as numbers, the
upper one brought down to the span. Both are within the span just when the lower one was from the
start. -/
theorem bounds_of_ofSubField? {sf : SubField} {r : Register} {f : Field}
    (h : Field.ofSubField? sf r = some f) :
    sf.bits.bind Field.spanOf? = some f.span ∧ ∃ lower upper,
      FirstNumber 0 (sf.candidates r (·.minimum) (·.minimum) (·.min)) lower ∧
      FirstNumber f.span.limit (sf.candidates r (·.maximum) (·.maximum) (·.max)) upper ∧
      f.span.limit.toNat = 2 ^ f.span.width - 1 ∧
      f.min = lower ∧ f.max.toNat = min upper.toNat (2 ^ f.span.width - 1) ∧
      (f.min.toNat ≤ 2 ^ f.span.width - 1 ∧ f.max.toNat ≤ 2 ^ f.span.width - 1 ↔
        lower.toNat ≤ 2 ^ f.span.width - 1) := by
  have hinherited (side : ValueBounds → Option Scalar) : (Field.inheritedRange r).bind side =
      if r.kind = .subfield then r.range.bind side else none := by
    unfold Field.inheritedRange
    split <;> rfl
  simp only [Field.ofSubField?, Option.bind_eq_bind, Option.bind_eq_some_iff, hinherited] at h
  obtain ⟨bits, hbits, span, hspan, h⟩ := h
  obtain rfl := Option.some.inj h
  have hmax (upper : UInt64) :
      (if upper ≤ span.limit then upper else span.limit).toNat =
        min upper.toNat (2 ^ span.width - 1) := by
    rw [← span.toNat_limit]
    split <;> rename_i hle <;> rw [UInt64.le_iff_toNat_le] at hle <;> omega
  refine ⟨by rw [hbits]; exact hspan, _, _, firstNumber_getD 0 _, firstNumber_getD span.limit _,
    span.toNat_limit, rfl, hmax _, and_iff_left ?_⟩
  rw [hmax]
  exact Nat.min_le_right ..

/-- A lower bound that is no number is passed over, and the range of the register stands in for
both. -/
theorem bounds_of_ofSubField?_inherited :
    let sf : SubField := ⟨some "LANE", some (.text "1:0"), none, some ⟨some (.text "low"), none⟩,
      none, none, none, none⟩
    let r : Register := ⟨"R", none, none, .text "0x400", some (.int 1), none,
      some ⟨some (.int 1), some (.int 200)⟩, false, .subfield, none, some [sf], none, none⟩
    let f : Field := ⟨"LANE", ⟨0, 1, by decide, by decide⟩, 1, 3, []⟩
    Field.ofSubField? sf r = some f ∧ ∃ lower upper,
      FirstNumber 0 [some (.text "low"), none, none, some (.int 1)] lower ∧
      FirstNumber f.span.limit [none, none, none, some (.int 200)] upper ∧
      f.min = lower ∧ f.max.toNat = min upper.toNat 3 ∧ f.min.toNat ≤ 3 ∧ f.max.toNat ≤ 3 := by
  intro sf r f
  have hf : Field.ofSubField? sf r = some f := by decide +kernel
  obtain ⟨-, lower, upper, hlower, hupper, -, hmin, hmax, hiff⟩ := bounds_of_ofSubField? hf
  have hfits : lower.toNat ≤ 3 := hmin ▸ (by decide : f.min.toNat ≤ 3)
  exact ⟨hf, lower, upper, hlower, hupper, hmin, hmax, hiff.2 hfits⟩

/-- The range of the register does not meet its field. The upper bound is brought down to the field,
and the lower one stays outside. -/
theorem lower_bound_exceeds_field :
    ∃ c r f, Catalog.ofDocument (.obj [("groups", .arr [.obj [("code", .str "g"),
        ("items", .arr [.obj [("code", .str "R"), ("address", .str "0x400"),
          ("size_bytes", .int 1), ("value_type", .str "subfield"),
          ("range", .obj [("minimum", .int 16), ("maximum", .int 200)]),
          ("sub_fields", .arr [.obj [("name", .str "LANE"), ("bits", .str "1:0")]])]])]])]) =
        .ok c ∧ c.registers = [r] ∧ (c.menu r).1.fields = [f] ∧
      f.span.width = 2 ∧ f.max = 3 ∧ f.min = 16 ∧
      ¬(f.min.toNat ≤ 2 ^ f.span.width - 1 ∧ f.max.toNat ≤ 2 ^ f.span.width - 1) := by
  let r : Register := ⟨"R", none, none, .text "0x400", some (.int 1), none,
    some ⟨some (.int 16), some (.int 200)⟩, false, .subfield, none,
    some [⟨some "LANE", some (.text "1:0"), none, none, none, none, none, none⟩], none, none⟩
  let f : Field := ⟨"LANE", ⟨0, 1, by decide, by decide⟩, 16, 3, []⟩
  have hfields : (Menu.ofRegister r).fields = [f] := by decide +kernel
  exact ⟨⟨_, [r], none, none, []⟩, r, f, by cbv, rfl, hfields, rfl, rfl, rfl, by decide⟩

end RegisterImage
