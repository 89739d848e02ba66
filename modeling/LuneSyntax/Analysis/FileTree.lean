import LuneSyntax.Text.Path

/-!
# File trees

Files and directories below a working directory, held in memory, and how a path is looked up
among them. Every part of a path but the last must name a directory; a path that leads out of
the tree finds directories only.
-/

set_option autoImplicit false

namespace LuneSyntax

inductive FileEntry where
  | missing
  | directory
  | file (bytes : List UInt8)
  deriving DecidableEq, Repr

/-- The named entries of a tree. Directories above a named entry exist without being named. -/
structure FileTree where
  entries : List (List (List Char) × FileEntry)
  deriving Repr

namespace FileTree

def empty : FileTree := ⟨[]⟩

def insert (tree : FileTree) (path : List Char) (entry : FileEntry) : FileTree :=
  ⟨((Path.split path).filter Path.isProper, entry) :: tree.entries⟩

def entryAt (tree : FileTree) (parts : List (List Char)) : FileEntry :=
  match tree.entries.lookup parts with
  | some entry => entry
  | none =>
    if parts = [] ∨ tree.entries.any fun entry => parts.isPrefixOf entry.1 then .directory
    else .missing

/-- Follows parts from a directory outside the tree. -/
def followOutside : List (List Char) → FileEntry
  | [] => .directory
  | part :: parts =>
    if Path.isProper part && part ≠ ['.', '.'] then .missing else followOutside parts

/-- Follows parts from a place inside the tree, whose part names are given from the last one. -/
def follow (tree : FileTree) (reached : List (List Char)) : List (List Char) → FileEntry
  | [] => tree.entryAt reached.reverse
  | part :: parts =>
    match tree.entryAt reached.reverse with
    | .directory =>
      if !Path.isProper part then tree.follow reached parts
      else if part = ['.', '.'] then
        match reached with
        | [] => followOutside parts
        | _ :: above => tree.follow above parts
      else tree.follow (part :: reached) parts
    | _ => .missing

/-- What is at a path. The empty path leads nowhere. -/
def lookup (tree : FileTree) (path : String) : FileEntry :=
  match path.toList with
  | [] => .missing
  | first :: rest =>
    let parts := Path.split (first :: rest)
    if first = Path.separator then followOutside parts else tree.follow [] parts

end FileTree

end LuneSyntax
