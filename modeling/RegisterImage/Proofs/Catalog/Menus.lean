import Mathlib
import RegisterImage.Catalog

/-!
# Menus stay the same

Looking at menus changes what a catalog remembers and nothing else. When no two registers have
the same code, each register keeps its menu whatever else has been looked at.

## Main definitions

* `Catalog.Distinct` — no two registers have the same code.
* `Catalog.Alike` — catalogs that differ in what they remember, but in no menu.
* `Catalog.Loaded` — the catalogs that come from a document.
-/

namespace RegisterImage

/-! ## Remembered menus -/

namespace MenuMemo

theorem lookup_fst (memo : MenuMemo) (r : Register) :
    (memo.lookup r).1 = (List.lookup r.code memo).getD (Menu.ofRegister r) := by
  unfold lookup
  split <;> simp [*]

/-- The menu that is looked at is remembered, and those of other codes are left alone. -/
theorem lookup_code (memo : MenuMemo) (r : Register) (code : String) :
    List.lookup code (memo.lookup r).2 =
      if code = r.code then some (memo.lookup r).1 else List.lookup code memo := by
  unfold lookup
  split
  · by_cases h : code = r.code <;> simp [*]
  · by_cases h : code = r.code <;> simp [h, List.lookup_cons, beq_false_of_ne]

theorem lookup_lookup (memo : MenuMemo) {r r' : Register} (h : r'.code = r.code → r' = r) :
    ((memo.lookup r).2.lookup r').1 = (memo.lookup r').1 := by
  rw [lookup_fst, lookup_code]
  by_cases hcode : r'.code = r.code
  · obtain rfl := h hcode
    simp
  · rw [if_neg hcode, ← lookup_fst]

end MenuMemo

namespace Catalog

/-! ## Registers by their codes -/

def Distinct (c : Catalog) : Prop :=
  (c.registers.map Register.code).Nodup

instance (c : Catalog) : Decidable c.Distinct :=
  inferInstanceAs (Decidable (List.Nodup _))

theorem Distinct.eq_of_code_eq {c : Catalog} (h : c.Distinct) {r r' : Register}
    (hr : r ∈ c.registers) (hr' : r' ∈ c.registers) (hcode : r.code = r'.code) : r = r' :=
  List.inj_on_of_nodup_map h hr hr' hcode

theorem mem_of_register? {c : Catalog} {code : String} {r : Register}
    (h : c.register? code = some r) : r ∈ c.registers ∧ r.code = code := by
  rw [register?, List.findRev?_eq_find?_reverse] at h
  exact ⟨List.mem_reverse.1 (List.mem_of_find?_eq_some h), by simpa using List.find?_some h⟩

theorem isSome_register?_iff {c : Catalog} {code : String} :
    (c.register? code).isSome ↔ ∃ r ∈ c.registers, r.code = code := by
  simp [register?, List.findRev?_eq_find?_reverse]

theorem Distinct.register?_code {c : Catalog} (h : c.Distinct) {r : Register}
    (hr : r ∈ c.registers) : c.register? r.code = some r := by
  cases hfound : c.register? r.code with
  | none =>
    have hknown : (c.register? r.code).isSome := isSome_register?_iff.2 ⟨r, hr, rfl⟩
    rw [hfound] at hknown
    cases hknown
  | some r' =>
    obtain ⟨hr', hcode⟩ := mem_of_register? hfound
    rw [h.eq_of_code_eq hr' hr hcode]

/-! ## Catalogs alike -/

structure Alike (c c' : Catalog) : Prop where
  registers : c.registers = c'.registers
  opening : c.opening = c'.opening
  closing : c.closing = c'.closing
  menu : ∀ r ∈ c'.registers, (c.menu r).1 = (c'.menu r).1

namespace Alike

variable {c c' c'' : Catalog}

theorem refl (c : Catalog) : c.Alike c :=
  ⟨rfl, rfl, rfl, fun _ _ => rfl⟩

theorem trans (h : c.Alike c') (h' : c'.Alike c'') : c.Alike c'' where
  registers := h.registers.trans h'.registers
  opening := h.opening.trans h'.opening
  closing := h.closing.trans h'.closing
  menu r hr := (h.menu r (h'.registers ▸ hr)).trans (h'.menu r hr)

theorem distinct (h : c.Alike c') (hdistinct : c'.Distinct) : c.Distinct := by
  rw [Distinct, h.registers]
  exact hdistinct

end Alike

theorem Distinct.alike_menu {c : Catalog} (h : c.Distinct) {r : Register}
    (hr : r ∈ c.registers) : (c.menu r).2.Alike c where
  registers := rfl
  opening := rfl
  closing := rfl
  menu _ hr' := c.memo.lookup_lookup fun hcode => h.eq_of_code_eq hr' hr hcode

/-! ## Catalogs of documents -/

/-- A catalog is loaded from a document, remembers menus and takes new definitions. -/
inductive Loaded : Catalog → Prop where
  | ofDocument {document : Json} {c : Catalog} : ofDocument document = .ok c → Loaded c
  | menu {c : Catalog} (r : Register) : Loaded c → Loaded (c.menu r).2
  | replace {c c' : Catalog} {r : Register} : Loaded c → c.replace r = .ok c' → Loaded c'

end Catalog

end RegisterImage
