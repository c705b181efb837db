import TestScout.FileTree.Basic
import TestScout.Path.Clean

/-!
# Overlays

An overlay holds contents that are not saved yet, by the path under which an editor knows the file.
The same file may be asked for by another path: an entry is found by its own path first, whatever
its spelling, and else by the first entry that has the same file name and denotes the same file.
-/

namespace TestScout

/-- Whether two paths with one file name denote the same file: by their clean forms, or in the
    file tree. -/
def sameFile (tree : FileTree) (x y : Path) : Bool :=
  x.same y ||
    (x.fileName = y.fileName && (x.clean.same y.clean || tree.denoteSame x y))

/-- **Being the same file is symmetric.** -/
theorem sameFile_comm (tree : FileTree) (x y : Path) : sameFile tree x y = sameFile tree y x := by
  simp only [sameFile, Path.same, FileTree.denoteSame_comm tree x y, eq_comm]

/-- Unsaved contents by path, in the order in which the paths were first inserted. -/
structure Overlay where
  entries : List (Path × String)
deriving DecidableEq, Repr, Inhabited

namespace Overlay

/-- No contents. -/
def empty : Overlay := ⟨[]⟩

/-- Entries with one more; an entry under the same path keeps its place. -/
def insertInto (path : Path) (content : String) : List (Path × String) → List (Path × String)
  | [] => [(path, content)]
  | entry :: rest =>
    if entry.1.same path then (entry.1, content) :: rest
    else entry :: insertInto path content rest

/-- The overlay with a content for a path, in place of an earlier one. -/
def insert (overlay : Overlay) (path : Path) (content : String) : Overlay :=
  ⟨insertInto path content overlay.entries⟩

/-- The overlay of a list of contents, later ones in place of earlier ones. -/
def ofList (contents : List (Path × String)) : Overlay :=
  contents.foldl (fun overlay entry => overlay.insert entry.1 entry.2) empty

/-- How many paths have a content. -/
def size (overlay : Overlay) : Nat :=
  overlay.entries.length

/-- The content under a path itself. -/
def ownContent? (overlay : Overlay) (path : Path) : Option String :=
  (overlay.entries.find? fun entry => entry.1.same path).map (·.2)

/-- The content of the first entry that is the same file as a path. -/
def aliasContent? (tree : FileTree) (overlay : Overlay) (path : Path) : Option String :=
  (overlay.entries.find? fun entry => sameFile tree path entry.1).map (·.2)

/-- The content for a path. -/
def lookup (tree : FileTree) (overlay : Overlay) (path : Path) : Option String :=
  (overlay.ownContent? path).or (overlay.aliasContent? tree path)

/-- **What was inserted under a path is found under it, and no other path is touched.** -/
theorem ownContent?_insert (overlay : Overlay) (path other : Path) (content : String) :
    (overlay.insert path content).ownContent? other =
      if path.same other then some content else overlay.ownContent? other := by
  obtain ⟨entries⟩ := overlay
  simp only [ownContent?, insert]
  induction entries with
  | nil =>
    by_cases h : path.same other <;> simp [insertInto, h]
  | cons entry rest ih =>
    by_cases hp : entry.1.same path
    · have hiff : entry.1.same other = path.same other := by
        rw [Path.same_iff] at hp
        simp [Path.same, hp]
      by_cases ho : path.same other <;> simp [insertInto, hp, hiff, ho]
    · by_cases ho : entry.1.same other
      · have hne : path.same other = false := by
          rw [Path.same_iff] at ho
          simp only [Path.same_iff] at hp
          simp only [Path.same, decide_eq_false_iff_not]
          intro h
          exact hp (ho.trans h.symm)
        simp [insertInto, hp, ho, hne]
      · simpa [insertInto, hp, ho] using ih

end Overlay

end TestScout
