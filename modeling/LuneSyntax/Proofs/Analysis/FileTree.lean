import LuneSyntax.Analysis.FileTree
import LuneSyntax.Proofs.Text.Path

/-!
# Files under normalized paths

A file that is found under a path is found under the normalized path. The parts that normalization
leaves out lead from a directory to itself.
-/

set_option autoImplicit false

namespace LuneSyntax.FileTree

variable {tree : FileTree} {reached parts : List (List Char)} {bytes : List UInt8}

theorem followOutside_ne_file (parts : List (List Char)) (bytes : List UInt8) :
    followOutside parts ≠ .file bytes := by
  induction parts with
  | nil => exact nofun
  | cons part parts ih =>
      rw [followOutside]
      split
      · exact nofun
      · exact ih

/-- On the way to a file only directories are passed. -/
theorem entryAt_of_follow_cons {part : List Char}
    (found : tree.follow reached (part :: parts) = .file bytes) :
    tree.entryAt reached.reverse = .directory := by
  unfold follow at found
  split at found
  · assumption
  · cases found

section Steps

variable {part : List Char} (inside : tree.entryAt reached.reverse = .directory)
include inside

theorem follow_improper (improper : Path.isProper part = false) :
    tree.follow reached (part :: parts) = tree.follow reached parts := by
  rw [follow.eq_def]
  simp [inside, improper]

theorem follow_down (proper : Path.isProper part = true) (down : part ≠ ['.', '.']) :
    tree.follow reached (part :: parts) = tree.follow (part :: reached) parts := by
  rw [follow.eq_def]
  simp [inside, proper, down]

end Steps

theorem follow_up {last : List Char}
    (inside : tree.entryAt (last :: reached).reverse = .directory) :
    tree.follow (last :: reached) (['.', '.'] :: parts) = tree.follow reached parts := by
  rw [follow.eq_def]
  rw [inside]
  rfl

theorem follow_out (inside : tree.entryAt [] = .directory) :
    tree.follow [] (['.', '.'] :: parts) = followOutside parts := by
  rw [follow.eq_def]
  rw [List.reverse_nil, inside]
  rfl

theorem follow_filter (found : tree.follow reached parts = .file bytes) :
    tree.follow reached (parts.filter Path.isProper) = .file bytes := by
  induction parts generalizing reached with
  | nil => exact found
  | cons part parts ih =>
      have inside := entryAt_of_follow_cons found
      by_cases proper : Path.isProper part = true
      case neg =>
        rw [List.filter_cons_of_neg proper]
        rw [follow_improper inside (eq_false_of_ne_true proper)] at found
        exact ih found
      rw [List.filter_cons_of_pos proper]
      by_cases down : part = ['.', '.']
      case neg =>
        rw [follow_down inside proper down] at found ⊢
        exact ih found
      subst down
      cases reached with
      | nil =>
          rw [follow_out inside] at found
          exact absurd found (followOutside_ne_file parts bytes)
      | cons last above =>
          rw [follow_up inside] at found ⊢
          exact ih found

theorem filter_ne_nil_of_follow (found : tree.follow reached parts = .file bytes)
    (nonempty : parts ≠ []) : parts.filter Path.isProper ≠ [] := by
  intro none
  obtain ⟨part, others, rfl⟩ := List.exists_cons_of_ne_nil nonempty
  have last := follow_filter found
  rw [none, follow, entryAt_of_follow_cons found] at last
  cases last

/-- A path to a file of the tree is relative, and its parts are followed from the top. -/
theorem lookup_eq_file_iff {path : String} :
    tree.lookup path = .file bytes ↔
      Path.root path.toList = [] ∧ tree.follow [] (Path.split path.toList) = .file bytes := by
  unfold lookup
  cases text : path.toList with
  | nil =>
      constructor
      · exact nofun
      · rintro ⟨_, found⟩
        exact absurd rfl (filter_ne_nil_of_follow found (Path.split_ne_nil []))
  | cons first rest =>
      rw [Path.root_cons_eq_nil_iff]
      by_cases absolute : first = Path.separator
      · simp [absolute, followOutside_ne_file]
      · simp [absolute]

theorem lookup_normalize {path : String} (found : tree.lookup path = .file bytes) :
    tree.lookup (String.ofList (Path.normalize path.toList)) = .file bytes := by
  obtain ⟨relative, followed⟩ := lookup_eq_file_iff.mp found
  have nonempty := filter_ne_nil_of_follow followed (Path.split_ne_nil path.toList)
  rw [lookup_eq_file_iff, String.toList_ofList]
  constructor
  · rw [Path.root_normalize, relative]
  · rw [Path.split_normalize relative nonempty]
    exact follow_filter followed

end LuneSyntax.FileTree
