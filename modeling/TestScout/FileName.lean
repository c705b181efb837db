import TestScout.Platform

/-!
# Platforms in file names

A file whose name ends in `_OS`, `_ARCH` or `_OS_ARCH`, with or without `_test` behind it, belongs
to builds for that platform only. The name counts up to its first dot, and what stands before its
first underscore is never read as a platform.
-/

namespace TestScout.FileName

/-- The platform that a file name asks for. -/
inductive Target where
  | any
  | os (system : String)
  | arch (machine : String)
  | both (system machine : String)
deriving DecidableEq, Repr, Inhabited

/-- The tags that have to hold for a file name. -/
def Target.tags : Target → List String
  | .any => []
  | .os system => [system]
  | .arch machine => [machine]
  | .both system machine => [system, machine]

/-- The parts of a name between underscores from its first underscore on, the last one first. -/
def partsReversed (name : String) : List String :=
  let stem := name.toList.takeWhile (· ≠ '.')
  match stem.dropWhile (· ≠ '_') with
  | [] => []
  | _ :: rest => ((rest.splitOn '_').map String.ofList).reverse

/-- The parts without `test` at the end. -/
def withoutTest : List String → List String
  | "test" :: rest => rest
  | parts => parts

/-- The platform that the last parts name, the last one first. -/
def targetOf : List String → Target
  | machine :: system :: _ =>
    if Platform.isOS system ∧ Platform.isArch machine then .both system machine
    else lastOnly machine
  | [last] => lastOnly last
  | [] => .any
where
  /-- The platform that one part names. -/
  lastOnly (part : String) : Target :=
    if Platform.isOS part then .os part
    else if Platform.isArch part then .arch part
    else .any

/-- The platform that a file name asks for. -/
def target (name : String) : Target :=
  targetOf (withoutTest (partsReversed name))

/-- Whether the file name allows a build in which `ok` says which tags hold. -/
def holds (ok : String → Bool) (name : String) : Bool :=
  (target name).tags.all ok

end TestScout.FileName
