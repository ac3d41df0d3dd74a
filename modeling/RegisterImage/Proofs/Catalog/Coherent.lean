import RegisterImage.Proofs.Catalog.Menus
import RegisterImage.CodeMap

/-!
# Remembered menus are right

A catalog remembers menus by code. What it remembers is never more than a shortcut: as long as no
two registers have the same code, every menu that is looked at is the one that the register
itself declares, before and after the register is replaced.

## Main definitions

* `MenuMemo.Extends` — a memo that remembers everything that another one does.
* `Catalog.Coherent` — every register has the menu that it declares.
* `Catalog.exists_of_replace` — what a new definition of a register changes.
* `Catalog.Coherent.replace` — a catalog stays coherent when a register is replaced.
-/

namespace RegisterImage

/-! ## Memos that grow -/

namespace MenuMemo

def Extends (memo' memo : MenuMemo) : Prop :=
  ∀ code menu, List.lookup code memo = some menu → List.lookup code memo' = some menu

theorem Extends.refl (memo : MenuMemo) : memo.Extends memo :=
  fun _ _ h => h

theorem Extends.trans {memo memo' memo'' : MenuMemo} (h : memo''.Extends memo')
    (h' : memo'.Extends memo) : memo''.Extends memo :=
  fun code menu hmenu => h code menu (h' code menu hmenu)

theorem extends_lookup (memo : MenuMemo) (r : Register) : (memo.lookup r).2.Extends memo := by
  intro code menu hmenu
  rw [lookup_code]
  by_cases hcode : code = r.code
  · subst hcode
    rw [if_pos rfl, lookup_fst, hmenu, Option.getD_some]
  · rw [if_neg hcode, hmenu]

/-- A menu that was looked at once is found again. -/
theorem Extends.lookup_fst_eq {memo memo' : MenuMemo} {r : Register}
    (h : memo'.Extends (memo.lookup r).2) : (memo'.lookup r).1 = (memo.lookup r).1 := by
  have hfound : List.lookup r.code (memo.lookup r).2 = some (memo.lookup r).1 := by
    rw [lookup_code, if_pos rfl]
  rw [lookup_fst, h _ _ hfound, Option.getD_some]

theorem lookup_forget (memo : MenuMemo) (code k : String) :
    List.lookup k (memo.forget code) = if k = code then none else List.lookup k memo :=
  Sorted.lookup_erase code memo k

end MenuMemo

namespace Catalog

variable {c c' : Catalog} {r : Register}

/-! ## Coherent catalogs -/

def Coherent (c : Catalog) : Prop :=
  ∀ r ∈ c.registers, (c.menu r).1 = Menu.ofRegister r

/-- The same catalog with nothing remembered. -/
def forgetful (c : Catalog) : Catalog :=
  { c with memo := [] }

theorem coherent_of_memo_eq_nil (h : c.memo = []) : c.Coherent := by
  intro r _
  rw [menu, h]
  rfl

theorem Alike.coherent (h : c'.Alike c) (hc : c.Coherent) : c'.Coherent := by
  intro r hr
  rw [h.registers] at hr
  rw [h.menu r hr, hc r hr]

theorem Coherent.alike_forgetful (h : c.Coherent) : c.Alike c.forgetful where
  registers := rfl
  opening := rfl
  closing := rfl
  menu r hr := h r hr

/-! ## Replaced registers -/

theorem exists_replaceLast {rs : List Register} (h : ∃ x ∈ rs, x.code = r.code) :
    ∃ before old after, rs = before ++ old :: after ∧ old.code = r.code ∧
      (∀ x ∈ after, x.code ≠ r.code) ∧ replaceLast r rs = before ++ r :: after := by
  induction rs with
  | nil =>
    obtain ⟨x, hx, -⟩ := h
    exact absurd hx List.not_mem_nil
  | cons x rs ih =>
    by_cases hlast : x.code = r.code ∧ !rs.any (·.code = r.code)
    · refine ⟨[], x, rs, rfl, hlast.1, fun y hy hcode => ?_, if_pos hlast⟩
      have : rs.any (·.code = r.code) = true := List.any_eq_true.2 ⟨y, hy, by simpa using hcode⟩
      simp [this] at hlast
    · have hrest : ∃ y ∈ rs, y.code = r.code := by
        by_contra hnone
        obtain ⟨y, hy, hcode⟩ := h
        rcases List.mem_cons.1 hy with rfl | hy
        · refine hlast ⟨hcode, ?_⟩
          simpa using hnone
        · exact hnone ⟨y, hy, hcode⟩
      obtain ⟨before, old, after, rfl, hold, hafter, hreplace⟩ := ih hrest
      refine ⟨x :: before, old, after, rfl, hold, hafter, ?_⟩
      rw [replaceLast, if_neg hlast, hreplace]
      rfl

theorem exists_of_replace (h : c.replace r = .ok c') :
    ∃ before old after, c.registers = before ++ old :: after ∧ old.code = r.code ∧
      (∀ x ∈ after, x.code ≠ r.code) ∧
      c' = { c with registers := before ++ r :: after, memo := c.memo.forget r.code } := by
  unfold replace at h
  split at h
  · rename_i hcontains
    obtain ⟨old, hold⟩ := Option.isSome_iff_exists.1 hcontains
    obtain ⟨before, old, after, hregisters, hcode, hafter, hreplace⟩ :=
      exists_replaceLast ⟨old, mem_of_register? hold⟩
    obtain rfl := Except.ok.inj h
    exact ⟨before, old, after, hregisters, hcode, hafter, by rw [hreplace]⟩
  · cases h

theorem Distinct.replace (h : c.Distinct) (hreplace : c.replace r = .ok c') : c'.Distinct := by
  obtain ⟨before, old, after, hregisters, hcode, -, rfl⟩ := exists_of_replace hreplace
  rw [Distinct, hregisters] at h
  simpa [Distinct, hcode] using h

/-- The new menu is declared by the new definition, and the others are still remembered. -/
theorem Coherent.replace (h : c.Coherent) (hreplace : c.replace r = .ok c') :
    c'.Coherent := by
  obtain ⟨before, old, after, hregisters, hcode, -, rfl⟩ := exists_of_replace hreplace
  intro r' hr'
  change (MenuMemo.lookup (c.memo.forget r.code) r').1 = _
  rw [MenuMemo.lookup_fst, MenuMemo.lookup_forget]
  by_cases hself : r'.code = r.code
  · rw [if_pos hself, Option.getD_none]
  · have hmem : r' ∈ c.registers := by
      have hne : r' ≠ r := fun heq => hself (heq ▸ rfl)
      rw [hregisters]
      simp only [List.mem_append, List.mem_cons, hne, false_or] at hr' ⊢
      exact hr'.imp_right .inr
    rw [if_neg hself, ← MenuMemo.lookup_fst]
    exact h r' hmem

end Catalog

end RegisterImage
