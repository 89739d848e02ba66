import LuneSyntax.Text.Path

/-!
# Normalized paths

A normalized path has the root and the proper parts of the path it comes from, and so it is
normalized no further.
-/

set_option autoImplicit false

namespace LuneSyntax.Path

/-! ## Parts -/

theorem split_eq_splitOn (path : List Char) : split path = path.splitOn separator := by
  induction path with
  | nil => rfl
  | cons character rest ih =>
      rw [split, List.splitOn_cons_eq_if_modifyHead, ← ih]
      cases parts : split rest with
      | nil => exact absurd (ih.symm.trans parts) (List.splitOn_ne_nil separator rest)
      | cons part parts => by_cases separates : character = separator <;> simp [separates]

theorem split_ne_nil (path : List Char) : split path ≠ [] := by
  rw [split_eq_splitOn]
  exact List.splitOn_ne_nil separator path

theorem separator_not_mem_of_mem_split {path part : List Char} (member : part ∈ split path) :
    separator ∉ part := by
  induction path generalizing part with
  | nil =>
      rw [List.mem_singleton.mp member]
      exact List.not_mem_nil
  | cons character rest ih =>
      rw [split] at member
      cases behind : split rest with
      | nil => exact absurd behind (split_ne_nil rest)
      | cons first parts =>
          simp only [behind] at member ih
          split at member
          · rcases List.mem_cons.mp member with rfl | later
            · exact List.not_mem_nil
            · exact ih later
          · rename_i inside
            rcases List.mem_cons.mp member with rfl | later
            · exact List.not_mem_cons_of_ne_of_not_mem (Ne.symm inside) (ih List.mem_cons_self)
            · exact ih (List.mem_cons_of_mem first later)

/-- The parts that normalization keeps. -/
def properParts (path : List Char) : List (List Char) :=
  (split path).filter isProper

section

variable {path part rest : List Char}

theorem isProper_of_mem_properParts (member : part ∈ properParts path) : isProper part = true :=
  (List.mem_filter.mp member).2

theorem separator_not_mem_of_mem_properParts (member : part ∈ properParts path) :
    separator ∉ part :=
  separator_not_mem_of_mem_split (List.mem_filter.mp member).1

theorem ne_nil_of_isProper (proper : isProper part = true) : part ≠ [] := by
  rintro rfl
  cases proper

theorem split_intercalate_properParts (nonempty : properParts path ≠ []) :
    split ([separator].intercalate (properParts path)) = properParts path := by
  rw [split_eq_splitOn]
  exact List.splitOn_intercalate separator (fun part => separator_not_mem_of_mem_properParts)
    nonempty

theorem properParts_intercalate (path : List Char) :
    properParts ([separator].intercalate (properParts path)) = properParts path := by
  by_cases empty : properParts path = []
  · rw [empty]
    rfl
  rw [properParts, split_intercalate_properParts empty]
  exact List.filter_eq_self.mpr fun part => isProper_of_mem_properParts

theorem head?_intercalate_properParts (path : List Char) :
    ([separator].intercalate (properParts path)).head? ≠ some separator := by
  cases parts : properParts path with
  | nil => exact nofun
  | cons part others =>
      have listed : part ∈ properParts path := by
        rw [parts]
        exact List.mem_cons_self
      obtain ⟨first, more, rfl⟩ :=
        List.exists_cons_of_ne_nil (ne_nil_of_isProper (isProper_of_mem_properParts listed))
      have different : separator ≠ first :=
        List.ne_of_not_mem_cons (separator_not_mem_of_mem_properParts listed)
      have begins : ([separator].intercalate ((first :: more) :: others)).head? = some first := by
        cases others with
        | nil => rw [List.intercalate_singleton, List.head?_cons]
        | cons next others =>
            rw [List.intercalate_cons_cons, List.cons_append, List.cons_append, List.head?_cons]
      rw [begins]
      exact fun same => different (Option.some.inj same).symm

/-! ## The root -/

theorem root_cases (path : List Char) :
    root path = [] ∨ root path = [separator] ∨ root path = [separator, separator] := by
  unfold root
  split <;> simp

theorem root_cons_eq_nil_iff {first : Char} :
    root (first :: rest) = [] ↔ first ≠ separator := by
  by_cases absolute : first = separator
  · simp only [root, absolute, decide_true, List.takeWhile_cons_of_pos, List.length_cons]
    split <;> simp_all
  · simp [root, absolute]

theorem root_append (plain : rest.head? ≠ some separator) :
    root (root path ++ rest) = root path := by
  have stops : rest.takeWhile (· = separator) = [] := by
    cases rest with
    | nil => rfl
    | cons first rest => exact List.takeWhile_cons_of_neg (by simpa using plain)
  rcases root_cases path with none | one | two
  · rw [none]
    simp [root, stops]
  · rw [one]
    simp [root, stops]
  · rw [two]
    simp [root, stops]

theorem properParts_root_append (path rest : List Char) :
    properParts (root path ++ rest) = properParts rest := by
  have skipped : ∀ rest, properParts (separator :: rest) = properParts rest := by
    intro rest
    rw [properParts, properParts, split_eq_splitOn, split_eq_splitOn,
      List.splitOn_cons_eq_if_modifyHead, if_pos (beq_self_eq_true separator)]
    rfl
  rcases root_cases path with none | one | two
  · rw [none, List.nil_append]
  · rw [one, List.singleton_append, skipped]
  · rw [two, List.cons_append, List.singleton_append, skipped, skipped]

/-! ## Normalization -/

theorem root_normalize (path : List Char) : root (normalize path) = root path := by
  have parts : (split path).filter isProper = properParts path := rfl
  unfold normalize
  rw [parts]
  simp only
  split
  · rename_i empty
    rw [(List.append_eq_nil_iff.mp empty).1]
    rfl
  · exact root_append (head?_intercalate_properParts path)

theorem properParts_normalize (path : List Char) :
    properParts (normalize path) = properParts path := by
  have parts : (split path).filter isProper = properParts path := rfl
  unfold normalize
  rw [parts]
  simp only
  split
  · rename_i empty
    rw [← properParts_intercalate path, (List.append_eq_nil_iff.mp empty).2]
    rfl
  · rw [properParts_root_append, properParts_intercalate]

/-- The parts of a relative path that names something below the place it is taken from. -/
theorem split_normalize (relative : root path = []) (nonempty : properParts path ≠ []) :
    split (normalize path) = properParts path := by
  have split := split_intercalate_properParts nonempty
  have parts : (Path.split path).filter isProper = properParts path := rfl
  have filled : [separator].intercalate (properParts path) ≠ [] := by
    intro empty
    have none := properParts_intercalate path
    rw [empty] at none
    exact nonempty none.symm
  unfold normalize
  rw [parts, relative]
  simp only [List.nil_append]
  rw [if_neg filled, split]

theorem normalize_eq_of (path : List Char) {other : List Char} (roots : root other = root path)
    (parts : properParts other = properParts path) : normalize other = normalize path := by
  rw [properParts, properParts] at parts
  rw [normalize, normalize, roots, parts]

theorem normalize_normalize (path : List Char) : normalize (normalize path) = normalize path :=
  normalize_eq_of path (root_normalize path) (properParts_normalize path)

end

end LuneSyntax.Path
