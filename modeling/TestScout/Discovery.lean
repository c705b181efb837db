import TestScout.BuildEnv.Difference
import TestScout.GoSource.Declaration
import TestScout.Package
import TestScout.ProjectRoot

/-!
# Discovering tests

The tests of a package are the functions of its test files whose names begin with one of four words.
They are reported by category, sorted by name; of equal names the one found first comes first. One
file that cannot be read or is not clean fails the whole report, the first such file deciding.
-/

namespace TestScout

open GoSource (Declaration Parser)

/-! ## 1. Categories -/

/-- What a test function is for. -/
inductive Category where
  | test
  | benchmark
  | sample
  | fuzz
deriving DecidableEq, Repr

namespace Category

/-- The word that names of the category begin with. -/
def word : Category → String
  | .test => "Test"
  | .benchmark => "Benchmark"
  | .sample => "Example"
  | .fuzz => "Fuzz"

/-- All categories. -/
def values : List Category := [.test, .benchmark, .sample, .fuzz]

/-- The category of a name. -/
def of? (name : String) : Option Category :=
  values.find? fun category => category.word.toList.isPrefixOf name.toList

end Category

/-! ## 2. Reports -/

/-- A test function as it is reported. -/
structure Found where
  name : String
  file : Path
  line : Nat
  doc : String
deriving DecidableEq, Repr

/-- The tests of a package. -/
structure DiscoveryReport where
  packageName : String
  root : Path
  /-- What has to be set to build the package; only with test files. -/
  difference : Option EnvDifference
  tests : List Found
  benchmarks : List Found
  samples : List Found
  fuzzTests : List Found
deriving DecidableEq, Repr

namespace Discovery

/-- A declaration of a file as it is reported, with its category. -/
def classified (file : Path) (declaration : Declaration) : Option (Category × Found) :=
  (Category.of? declaration.name).map fun category =>
    (category, ⟨declaration.name, file, declaration.line, declaration.doc⟩)

/-- The test functions of one file, in the order of the source. -/
def scanFile (parser : Parser) (tree : FileTree) (env : BuildEnv) (file : Path) :
    Except Failure (List (Category × Found)) :=
  match env.effectiveSource tree file with
  | .error failure => .error failure
  | .ok source =>
    match parser.parse source with
    | .error cause => .error (.unparsed file cause)
    | .ok root =>
      match root.ensureClean with
      | .error error => .error (.malformed file error)
      | .ok () => .ok (root.declarations.filterMap (classified file))

/-- The test functions of several files, in the order of the files. -/
def scanFiles (parser : Parser) (tree : FileTree) (env : BuildEnv) :
    List Path → Except Failure (List (Category × Found))
  | [] => .ok []
  | file :: rest =>
    match scanFile parser tree env file with
    | .error failure => .error failure
    | .ok found =>
      match scanFiles parser tree env rest with
      | .error failure => .error failure
      | .ok others => .ok (found ++ others)

/-- The test functions of a category, sorted by name. -/
def bucket (found : List (Category × Found)) (category : Category) : List Found :=
  ((found.filter (·.1 = category)).map (·.2)).mergeSort fun x y => x.name ≤ y.name

/-- The root that a report names: the project's, or the directory itself outside projects. -/
def reportedRoot (tree : FileTree) (env : BuildEnv) (dir : Path) : Path :=
  match ProjectRoot.find tree env dir with
  | .ok root => root
  | .error _ => dir.clean

/-- The tests of the package in a directory, built in `env`; `base` is the environment of a user who
    sets nothing. -/
def discover (parser : Parser) (host : Host) (tree : FileTree) (env base : BuildEnv) (dir : Path) :
    Except Failure DiscoveryReport :=
  match Package.ofDirectory tree env dir with
  | .error failure => .error failure
  | .ok package =>
    match scanFiles parser tree env (package.testFiles.map dir.child) with
    | .error failure => .error failure
    | .ok found =>
      .ok
        { packageName := package.name
          root := reportedRoot tree env dir
          difference := if package.testFiles.isEmpty then none else some (.between host base env)
          tests := bucket found .test
          benchmarks := bucket found .benchmark
          samples := bucket found .sample
          fuzzTests := bucket found .fuzz }

end Discovery

end TestScout
