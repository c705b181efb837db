import TestScout.BuildEnv.Resolve
import TestScout.Path.Clean

/-!
# Project roots

The project of a directory starts at the nearest directory above it, itself included, that holds a
module file. Outside modules it starts at the `src` of the toolchain or of a source directory that
the directory lies in.
-/

namespace TestScout.ProjectRoot

/-- The file that marks the root of a module. -/
def moduleFile : String := "go.mod"

/-- The path with these components, whose last one comes first, and all paths above it. -/
def ascend : List Component → List Path
  | [] => []
  | component :: above => Path.ofComponents (component :: above).reverse :: ascend above

/-- A path and all paths above it, the nearest first. -/
def ancestors (path : Path) : List Path :=
  path :: (ascend path.components.reverse).drop 1

/-- The nearest directory with a module file. -/
def moduleRoot (tree : FileTree) (start : Path) : Option Path :=
  (ancestors start).find? fun dir => tree.isFile (dir.child moduleFile)

/-- The directories that may hold sources outside modules. -/
def sourceRoots (env : BuildEnv) : List Path :=
  ((if env.goroot = "" then [] else [env.goroot])
    ++ ((env.gopath.toList.splitOn ':').map String.ofList).filter (· ≠ ""))
    |>.map fun dir => Path.child ⟨dir⟩ "src"

/-- The first source directory that the given directory lies in. -/
def sourceRoot (tree : FileTree) (env : BuildEnv) (start : Path) : Option Path :=
  ((sourceRoots env).map tree.canonical).find? start.startsWith

/-- The root of the project that a directory belongs to. -/
def find (tree : FileTree) (env : BuildEnv) (dir : Path) : Except Failure Path :=
  match Path.absolute? tree.currentPath dir with
  | none => .error .emptyPath
  | some absolute =>
    let start := tree.canonical absolute
    match (moduleRoot tree start).or (sourceRoot tree env start) with
    | some root => .ok root
    | none => .error (.noProjectRoot start)

end TestScout.ProjectRoot
