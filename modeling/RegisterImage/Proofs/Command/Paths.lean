import Mathlib.Data.List.TakeWhile
import RegisterImage.Command.Path

/-!
# Files in directories

The path of the directory that holds a file has nothing idle at its end. A name that is put into
that directory gives a file in the same directory if all that stands before its last step is idle,
and only then. A name that begins with a slash leaves the directory.

## Main definitions

* `Path.dropIdle_append_slash` — the idle end of a path that goes on.
* `Path.directory_join_parent_iff` — when a name stays in the directory it is put into.
-/

namespace RegisterImage.Path

/-! ## Idle ends -/

section Idle

variable {s : List Char}

@[simp] theorem dropIdle_nil : dropIdle [] = [] := by
  simp [dropIdle]

theorem dropIdle_cons {c : Char} (hslash : c ≠ '/') (hdot : c ≠ '.') (s : List Char) :
    dropIdle (c :: s) = c :: s := by
  unfold dropIdle
  split <;> grind

theorem dropIdle_slash_cons (hs : s ≠ []) : dropIdle ('/' :: s) = dropIdle s := by
  rw [dropIdle]
  exact fun h => hs h

theorem dropIdle_dot_cons (s : List Char) : dropIdle ('.' :: '/' :: s) = dropIdle ('/' :: s) := by
  conv => lhs; rw [dropIdle]

theorem length_dropIdle_le (s : List Char) : (dropIdle s).length ≤ s.length := by
  fun_induction dropIdle s with
  | case1 => exact Nat.le_refl _
  | case2 s _ ih => exact Nat.le_succ_of_le ih
  | case3 s ih => exact Nat.le_succ_of_le ih
  | case4 s => exact Nat.le_refl _

/-- Only the root keeps its slash. -/
theorem dropIdle_eq_root_or (s : List Char) :
    dropIdle s = ['/'] ∨ (dropIdle s).head? ≠ some '/' := by
  fun_induction dropIdle s with
  | case1 => exact .inl rfl
  | case2 s _ ih => exact ih
  | case3 s ih => exact ih
  | case4 s hroot hslash hdot =>
    refine .inr fun hhead => ?_
    obtain ⟨rest, rfl⟩ := List.head?_eq_some_iff.1 hhead
    exact hslash rest rfl

@[simp] theorem dropIdle_dropIdle (s : List Char) : dropIdle (dropIdle s) = dropIdle s := by
  fun_induction dropIdle s with
  | case1 => rw [dropIdle]
  | case2 s _ ih => exact ih
  | case3 s ih => exact ih
  | case4 s hroot hslash hdot => rw [dropIdle] <;> assumption

/-- By induction on what is dropped: the end of a path does not depend on what stands before its
slash, unless the end is idle to the last step. -/
theorem dropIdle_append_slash (hs : s.getLast? ≠ some '/') (rest : List Char) :
    dropIdle (s ++ '/' :: rest) =
      if dropIdle s = [] ∨ dropIdle s = ['.'] then dropIdle ('/' :: rest)
      else dropIdle s ++ '/' :: rest := by
  fun_induction dropIdle s with
  | case1 => exact absurd rfl hs
  | case2 s hne ih =>
    rw [List.cons_append, dropIdle_slash_cons (by simp)]
    refine ih ?_
    cases s with
    | nil => exact absurd rfl hne
    | cons c s => simpa using hs
  | case3 s ih =>
    rw [List.cons_append, List.cons_append, dropIdle_dot_cons]
    exact ih (by simpa using hs)
  | case4 s hroot hslash hdot =>
    split
    · rename_i hidle
      rcases hidle with rfl | rfl
      · rfl
      · exact dropIdle_dot_cons rest
    · rename_i hidle
      rw [not_or] at hidle
      obtain ⟨c, s, rfl⟩ := List.exists_cons_of_ne_nil hidle.1
      cases s <;> (rw [dropIdle] <;> simp_all)

end Idle

/-! ## The directory of a file -/

/-- A path whose last step is neither idle nor a slash lies in what stands before that step. -/
theorem toList_parent {path : String} {c : Char} {s : List Char}
    (hpath : path.toList.reverse = c :: s) (hslash : c ≠ '/') (hdot : c ≠ '.') :
    (parent path).toList.reverse = dropIdle ((c :: s).dropWhile (· ≠ '/')) := by
  rw [parent, hpath, dropIdle_cons hslash hdot]
  split
  · rename_i hroot
    exact absurd (List.cons.inj hroot).1 hslash
  · rw [String.toList_ofList, List.reverse_reverse]

@[simp] theorem dropIdle_parent (path : String) :
    dropIdle (parent path).toList.reverse = (parent path).toList.reverse := by
  rw [parent]
  split
  · exact dropIdle_nil
  · rw [String.toList_ofList, List.reverse_reverse, dropIdle_dropIdle]

theorem directory_eq_dot_iff (path : String) :
    directory path = "." ↔
      (parent path).toList.reverse = [] ∨ (parent path).toList.reverse = ['.'] := by
  rw [directory, List.reverse_eq_nil_iff, List.reverse_eq_iff, String.toList_eq_nil_iff,
    show ['.'].reverse = ".".toList from rfl, String.toList_inj]
  by_cases hempty : parent path = ""
  · simp [hempty]
  · simp [hempty, String.isEmpty_iff]

theorem directory_of_ne {path : String} (h : parent path ≠ "") : directory path = parent path := by
  rw [directory, if_neg (by simpa [String.isEmpty_iff] using h)]

/-- Between the path of a directory and a relative name there is one slash, that of the root or
one that is added. -/
theorem toList_join_parent {path name : String} (hdirectory : parent path ≠ "")
    (hname : isAbsolute name = false) :
    ∃ before, (join (parent path) name).toList.reverse = name.toList.reverse ++ '/' :: before ∧
      dropIdle ('/' :: before) = (parent path).toList.reverse := by
  have hempty : (parent path).isEmpty = false := by simpa [String.isEmpty_iff] using hdirectory
  have hslash : endsInSlash (parent path) = ((parent path).toList.reverse.head? = some '/') := by
    rw [endsInSlash, List.head?_reverse]
    exact decide_eq_true_eq
  have hidle := dropIdle_parent path
  rcases dropIdle_eq_root_or (parent path).toList.reverse with hroot | hhead
  · rw [hidle] at hroot
    have hends : endsInSlash (parent path) := by rw [hslash, hroot]; rfl
    refine ⟨[], ?_, by rw [hroot, dropIdle]⟩
    rw [join, if_pos (by simp [hends]), hname, if_neg Bool.false_ne_true, String.toList_append,
      List.reverse_append, hroot]
  · rw [hidle] at hhead
    have hends : endsInSlash (parent path) = false := by rwa [← Bool.not_eq_true, hslash]
    refine ⟨(parent path).toList.reverse, ?_, ?_⟩
    · rw [join, if_neg (by simp [hname, hempty, hends])]
      simp
    · rw [dropIdle_slash_cons (by simpa using hdirectory), hidle]

theorem dropWhile_append_slash (s rest : List Char) :
    (s ++ '/' :: rest).dropWhile (· ≠ '/') = s.dropWhile (· ≠ '/') ++ '/' :: rest := by
  rw [List.dropWhile_append]
  split
  · rename_i hempty
    rw [List.isEmpty_iff.1 hempty]
    simp
  · rfl

/-- What stands before the last step of a relative name does not begin with a slash. -/
theorem getLast?_dropWhile_ne {name : String} (hname : isAbsolute name = false) :
    (name.toList.reverse.dropWhile (· ≠ '/')).getLast? ≠ some '/' := by
  intro hlast
  obtain ⟨step, hstep⟩ := List.dropWhile_suffix (l := name.toList.reverse) (· ≠ '/')
  have hhead : name.toList.head? = some '/' := by
    rw [← List.getLast?_reverse, ← hstep, List.getLast?_append, hlast, Option.some_or]
  simp [isAbsolute, hhead] at hname

/-- A relative name stays in the directory of a file if nothing but idle steps stands before its
last one, and leaves it otherwise. -/
theorem directory_join_parent_iff {path name : String} {c : Char} {s : List Char}
    (hname : isAbsolute name = false) (hlast : name.toList.reverse = c :: s) (hslash : c ≠ '/')
    (hdot : c ≠ '.') :
    directory (join (parent path) name) = directory path ↔ directory name = "." := by
  by_cases hdirectory : parent path = ""
  · have hjoin : join (parent path) name = name := by
      rw [join, hdirectory, hname]
      simp
    have hhere : directory path = "." := by
      rw [directory, hdirectory]
      rfl
    rw [hjoin, hhere]
  · obtain ⟨before, hjoin, hbefore⟩ := toList_join_parent hdirectory hname
    have hrelative := getLast?_dropWhile_ne hname
    have hparent := toList_parent hlast hslash hdot
    rw [hlast] at hrelative hjoin
    have hjoined := toList_parent (s := s ++ '/' :: before) hjoin hslash hdot
    rw [← List.cons_append, dropWhile_append_slash, dropIdle_append_slash hrelative] at hjoined
    rw [directory_eq_dot_iff, hparent]
    split at hjoined
    · rename_i hidle
      rw [hbefore, List.reverse_inj, String.toList_inj] at hjoined
      exact iff_of_true (by rw [directory, hjoined, directory]) hidle
    · rename_i hidle
      refine iff_of_false (fun hsame => hidle (.inl ?_)) hidle
      have hne : parent (join (parent path) name) ≠ "" := by
        rintro hempty
        simp [hempty] at hjoined
      rw [directory_of_ne hne, directory_of_ne hdirectory] at hsame
      have hlength := length_dropIdle_le ('/' :: before)
      rw [hbefore, ← hsame, hjoined, List.length_append] at hlength
      exact List.eq_nil_of_length_eq_zero (by omega)

/-- A name of one step has no directory of its own. -/
theorem directory_of_notMem {name : String} {c : Char} {s : List Char}
    (hlast : name.toList.reverse = c :: s) (hdot : c ≠ '.') (hmem : '/' ∉ name.toList) :
    directory name = "." := by
  rw [← List.mem_reverse, hlast] at hmem
  have hnone : (c :: s).dropWhile (· ≠ '/') = [] :=
    List.dropWhile_eq_nil_iff.2 fun x hx => decide_eq_true (ne_of_mem_of_not_mem hx hmem)
  rw [directory_eq_dot_iff,
    toList_parent hlast (ne_of_mem_of_not_mem List.mem_cons_self hmem) hdot, hnone, dropIdle_nil]
  exact .inl rfl

theorem join_of_isAbsolute (directory : String) {name : String} (hname : isAbsolute name) :
    join directory name = name := by
  rw [join, hname, Bool.true_or, Bool.true_or, if_pos rfl, if_pos rfl]

end RegisterImage.Path
