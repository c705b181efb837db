import TestScout.Digest
import TestScout.Path.Clean

/-!
# Names of test binaries

The binary of a package is named after the package's path. A short path is flattened: every
character that has a meaning in paths, patterns or archives becomes `%`. A path that is long even
when clean is named by the start of its digest and its last name instead.
-/

namespace TestScout.ArtifactName

/-- The size in bytes from which on a clean path is hashed. -/
def hashThreshold : Nat := 254

/-- What stands at the end of a hashed name. -/
def hashedEnding : String := ".test.exe"

/-- How many bytes of the digest stand in a hashed name. -/
def digestBytes : Nat := 8

/-- The characters that a flattened name does not keep. -/
def reserved : List Char := ['*', '.', '"', '/', '\\', '[', ']', ':', ';', '|', ',']

/-- What stands in a flattened name for a reserved character. -/
def placeholder : Char := '%'

/-- One character of a flattened name. -/
def flattenChar (c : Char) : Char :=
  if c ∈ reserved then placeholder else c

/-- The name of a short path. -/
def flatten (path : String) : String :=
  String.ofList (path.toList.map flattenChar)

/-- The name of a long path, which is given clean. -/
def hashed (cleaned : String) : String :=
  let digest := (Digest.sha256 cleaned.toUTF8.toList).take digestBytes
  String.ofList (Digest.hex digest) ++ "." ++ Path.baseName cleaned ++ hashedEnding

/-- The name of the test binary of the package at a path. -/
def ofPath (path : String) : String :=
  let cleaned := (Path.mk path).clean.text
  if hashThreshold ≤ cleaned.utf8ByteSize then hashed cleaned else flatten path

/-- **No reserved character is left in a flattened name.** -/
theorem not_mem_flatten {path : String} {c : Char} (h : c ∈ reserved) :
    c ∉ (flatten path).toList := by
  simp only [flatten, String.toList_ofList, List.mem_map, not_exists, not_and]
  intro d _ hd
  unfold flattenChar at hd
  split at hd
  · subst hd
    simp [reserved, placeholder] at h
  · subst hd
    contradiction

end TestScout.ArtifactName
