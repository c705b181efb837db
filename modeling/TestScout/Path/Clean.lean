import TestScout.Path.Basic

/-!
# Clean paths

A clean path names what a path names without going up where it need not: every `.` is gone, a name
followed by `..` is gone together with it, and at the root `..` is gone. Only a relative path may
still begin with `..`, and a path of which nothing is left is `.`. The file system is not asked.
-/

namespace TestScout.Path

/-! ## 1. Cleaning -/

/-- One more component at the end of clean ones. The clean components are in reverse, the last one
    first. -/
def cleanStep (kept : List Component) : Component → List Component
  | .here => kept
  | .up =>
    match kept with
    | .name _ :: before => before
    | .root :: _ => kept
    | _ => .up :: kept
  | component => component :: kept

/-- The clean components of a path. -/
def cleanComponents (path : Path) : List Component :=
  (path.components.foldl cleanStep []).reverse

/-- The clean form of a path. -/
def clean (path : Path) : Path :=
  match path.cleanComponents with
  | [] => ⟨"."⟩
  | components => ofComponents components

/-- The clean form of a path seen from the current directory; none for the empty path, which names
    nothing. -/
def absolute? (current path : Path) : Option Path :=
  if path.text = "" then none else some (current.join path).clean

/-! ## 2. The last name in a text -/

/-- A slash of either kind. -/
def isSlash (c : Char) : Bool :=
  c == '/' || c == '\\'

/-- What stands behind the last slash of a text, slashes at the end not counted. -/
def baseName (text : String) : String :=
  let reversed := text.toList.reverse.dropWhile isSlash
  if reversed = [] then (if text = "" then "." else "/")
  else String.ofList (reversed.takeWhile (!isSlash ·)).reverse

end TestScout.Path
