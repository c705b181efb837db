import TestScout.BuildEnv.Resolve

/-!
# Packages

A package is what the sources of one directory declare together. The sources that an environment
does not build are set aside; the others are library sources, tests inside the package, and tests
in a package of their own, whose name is the package's with `_test` behind it. The first source
that is built names the package, and every later one has to agree with it.
-/

namespace TestScout

/-- The package of a directory, each list of files in the order of their names. -/
structure Package where
  /-- The name, without `_test`. -/
  name : String
  dir : Path
  /-- The library sources. -/
  sources : List String
  /-- The tests inside the package. -/
  tests : List String
  /-- The tests in the package of their own. -/
  outerTests : List String
  /-- The sources that are not built. -/
  ignored : List String
deriving DecidableEq, Repr

namespace Package

/-- All files with tests, the ones inside the package first. -/
def testFiles (package : Package) : List String :=
  package.tests ++ package.outerTests

/-! ## 1. Names -/

/-- Whether a file never belongs to a package. -/
def isHiddenName (name : String) : Bool :=
  name.toList.head? = some '_' || name.toList.head? = some '.'

/-- What the name of a test ends in, before the extension. -/
def testEnding : List Char := ['_', 't', 'e', 's', 't']

/-- Whether a file of this name holds tests. -/
def isTestName (name : String) : Bool :=
  (testEnding ++ ['.', 'g', 'o']).isSuffixOf name.toList

/-- The name of a package without `_test` at its end; none if it does not end so. -/
def withoutTest? (declared : String) : Option String :=
  if testEnding.isSuffixOf declared.toList then
    some (String.ofList (declared.toList.take (declared.length - testEnding.length)))
  else none

/-! ## 2. Adding one source -/

/-- Which of a package's lists a built source belongs to, and the package name it stands for. -/
structure Role where
  isOuter : Bool
  declared : String
deriving DecidableEq, Repr

/-- The role of a source that declares a package, `known` being the name known so far. -/
def roleOf (known fileName declared : String) : Role :=
  if isTestName fileName && known != declared then
    match withoutTest? declared with
    | some inner => ⟨true, inner⟩
    | none => ⟨false, declared⟩
  else ⟨false, declared⟩

/-- A package whose sources are being read, with the file that named it. -/
structure Reading where
  package : Package
  /-- The file that named the package. -/
  namedBy : String
  /-- Whether any source was found at all. -/
  sawSource : Bool
deriving DecidableEq, Repr

/-- Nothing read yet. -/
def Reading.start (dir : Path) : Reading :=
  ⟨⟨"", dir, [], [], [], []⟩, "", false⟩

/-- Sets a source aside. -/
def Reading.ignore (state : Reading) (fileName : String) : Reading :=
  { state with package := { state.package with ignored := state.package.ignored ++ [fileName] } }

/-- Names the package by a source, or checks that the source agrees with the name. -/
def Reading.agree (state : Reading) (fileName declared : String) : Except Failure Reading :=
  if state.package.name = "" then
    .ok { state with package := { state.package with name := declared }, namedBy := fileName }
  else if declared ≠ state.package.name then
    .error (.importing (.severalPackages state.package.dir state.package.name state.namedBy
      declared fileName))
  else .ok state

/-- The package with a built source in the list it belongs to. -/
def addFile (package : Package) (fileName : String) (isOuter : Bool) : Package :=
  if isOuter then { package with outerTests := package.outerTests ++ [fileName] }
  else if isTestName fileName then { package with tests := package.tests ++ [fileName] }
  else { package with sources := package.sources ++ [fileName] }

/-- The package name of sources that only document. -/
def documentationName : String := "documentation"

/-- Reads one source that is not hidden, given its header. -/
def Reading.addSource (env : BuildEnv) (state : Reading) (fileName : String) (header : Header) :
    Except Failure Reading :=
  if !env.matchesFile fileName header then .ok (state.ignore fileName)
  else
    match header.package with
    | none =>
      .error (.importing (.noPackageClause (state.package.dir.child fileName)
        (header.unexpected.getD "EOF")))
    | some declared =>
      if declared = documentationName then .ok (state.ignore fileName)
      else
        let role := roleOf state.package.name fileName declared
        match state.agree fileName role.declared with
        | .error failure => .error failure
        | .ok state =>
          .ok { state with package := state.package.addFile fileName role.isOuter }

/-! ## 3. Reading a directory -/

/-- The header of a source. -/
def readHeader (tree : FileTree) (env : BuildEnv) (path : Path) : Except Failure Header :=
  match env.effectiveSource tree path with
  | .error failure => .error failure
  | .ok source =>
    match Header.scan source.toList with
    | .error cause => .error (.badConstraint path cause)
    | .ok header => .ok header

/-- Reads the files of these names. -/
def readAll (tree : FileTree) (env : BuildEnv) (state : Reading) :
    List String → Except Failure Reading
  | [] => .ok state
  | fileName :: rest =>
    if isHiddenName fileName then readAll tree env state rest
    else
      match readHeader tree env (state.package.dir.child fileName) with
      | .error failure => .error failure
      | .ok header =>
        match Reading.addSource env { state with sawSource := true } fileName header with
        | .error failure => .error failure
        | .ok state => readAll tree env state rest

/-- The package that was read, if there is one. -/
def Reading.finish (state : Reading) : Except Failure Package :=
  if state.package.name ≠ "" then .ok state.package
  else if state.sawSource ∧ state.package.ignored ≠ [] then
    .error (.importing (.allExcluded state.package.dir))
  else .error (.importing (.noSources state.package.dir))

/-- The package in a directory. -/
def ofDirectory (tree : FileTree) (env : BuildEnv) (dir : Path) : Except Failure Package :=
  if !tree.isDirectory dir then .error (.importing (.notFound dir))
  else
    match tree.listFiles dir (some "go") with
    | .error cause => .error (.unlistable dir cause)
    | .ok names =>
      match readAll tree env (.start dir) names with
      | .error failure => .error failure
      | .ok state => state.finish

end Package

end TestScout
