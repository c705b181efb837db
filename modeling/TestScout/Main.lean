import TestScout.Executable

/-!
# The program on a disk

The program itself works on a file tree that is a value. Here the part of the disk that a command
line concerns is taken into such a tree, and what the program has changed in it is written back.
-/

namespace TestScout.Disk

/-! ## 1. Taking the disk into a tree -/

/-- What stands at a path when all links are followed, and where that is. -/
def look (path : String) : IO (Option (String × Entry)) := do
  try
    let place ← IO.FS.realPath path
    if ← place.isDir then return some (place.toString, .directory)
    let bytes ← IO.FS.readBinFile place
    return some (place.toString, .file bytes)
  catch _ => return none

/-- The location of an absolute path without links. -/
def locationOf (path : String) : Location :=
  (path.splitOn "/").filter (· ≠ "")

/-- The tree with a directory at a location and at every location above it. -/
def withDirectories (tree : FileTree) (location : Location) : FileTree :=
  (List.range location.length).foldl (fun tree n =>
    let place := location.take (n + 1)
    if (tree.entry? place).isSome then tree else tree.put place .directory) tree

/-- The tree with an entry that was found at a place; where another path led there, it is a link. -/
def withFound (tree : FileTree) (path place : String) (entry : Entry) : FileTree :=
  let tree := withDirectories tree (locationOf place).dropLast
  let tree :=
    if (tree.entry? (locationOf place)).isSome then tree else tree.put (locationOf place) entry
  if path = place then tree else tree.put (locationOf path) (.link ⟨place⟩)

/-- The tree with what stands at a path, the directory of which holds no links. -/
def taken (tree : FileTree) (path : String) : IO FileTree := do
  match ← look path with
  | none => return tree
  | some (place, entry) => return withFound tree path place entry

/-- The tree with all that a path leads through, and the module files on the way. -/
def walked (tree : FileTree) (dir : String) : List Component → IO FileTree
  | [] => return tree
  | component :: rest => do
    let path := match component with
      | .root => "/"
      | .here => dir
      | .up => dir ++ "/.."
      | .name entry => if dir = "/" then "/" ++ entry else dir ++ "/" ++ entry
    match ← look path with
    | none => return tree
    | some (place, entry) =>
      let tree := match component with
        | .name _ => withFound tree path place entry
        | _ => withDirectories tree (locationOf place)
      let tree ← taken tree (place ++ "/" ++ ProjectRoot.moduleFile)
      walked tree place rest

/-- The tree with what a directory holds. -/
def listed (tree : FileTree) (path : String) : IO FileTree := do
  try
    let place ← IO.FS.realPath path
    if ← place.isDir then
      let mut tree := tree
      for entry in ← place.readDir do
        tree ← taken tree entry.path.toString
      return tree
    else return tree
  catch _ => return tree

/-- The tree with all that a path leads through, and with what the directory it ends in holds. -/
def surveyed (tree : FileTree) (path : Path) : IO FileTree := do
  let whole := tree.currentPath.join path
  let tree ← walked tree "/" whole.components
  let tree ← listed tree whole.text
  match whole.parent with
  | some dir => listed tree dir.text
  | none => return tree

/-- The paths that a command line concerns, as far as they stand in it. -/
def concerned (invocation : Invocation) : List Path :=
  (match invocation.request with
    | .list path => [path.getD ⟨"."⟩]
    | .env file _ => [file]
    | .function query =>
      match PositionQuery.read query.toList with
      | .ok query => [query.path]
      | .error _ => []
    | .run dir _ => [dir]
    | .init dir _ => [dir]
    | .completions _ dir _ => dir.toList
    | .escape _ => [])
  ++ (invocation.flags.overlay.map fun argument => ⟨String.ofList (trim argument.toList)⟩).toList

/-- The paths with unsaved contents. -/
def unsaved (tree : FileTree) (invocation : Invocation) : List Path :=
  match invocation.flags.overlay.map (Overlay.load tree) with
  | some (.ok (some overlay)) => overlay.entries.map (·.1)
  | _ => []

/-- The tree of the disk as far as a command line concerns it. -/
def treeFor (bindings : List (String × String)) (words : List String) : IO FileTree := do
  let current := (← IO.currentDir).toString
  let mut tree ← surveyed ⟨[], locationOf current⟩ ⟨"."⟩
  match CommandLine.read words with
  | .error _ => return tree
  | .ok invocation =>
    for path in concerned invocation do
      tree ← surveyed tree path
    for path in unsaved tree invocation do
      tree ← surveyed tree path
    let env := BuildEnv.ofVariables Surroundings.built.host (bindings.lookup ·) .standard
    for path in ProjectRoot.sourceRoots env do
      tree ← walked tree "/" (tree.currentPath.join path).components
    return tree

/-! ## 2. Variables -/

/-- The variables of the process. -/
def processBindings : IO (List (String × String)) := do
  let bytes ← IO.FS.readBinFile "/proc/self/environ"
  return ((Utf8.decodeLossy bytes).splitOn "\x00").filterMap fun entry =>
    match entry.splitOn "=" with
    | name :: first :: rest => some (name, "=".intercalate (first :: rest))
    | _ => none

/-! ## 3. Writing back -/

/-- Writes back what the program has changed. -/
def writeBack (earlier later : FileTree) : IO Unit := do
  for location in later.locations do
    if earlier.entry? location ≠ later.entry? location then
      let path := (FileTree.pathOf location).text
      match later.entry? location with
      | some .directory => IO.FS.createDirAll path
      | some (.file content) | some (.shared _ content) => IO.FS.writeBinFile path content
      | some (.link _) | none => pure ()

/-- Runs the program on the disk. -/
def run (words : List String) : IO UInt32 := do
  let bindings ← processBindings
  let tree ← treeFor bindings words
  let output ← IO.getStdout
  let errors ← IO.getStderr
  match Program.run .built tree bindings words with
  | .usage notice =>
    if notice.status = 0 then output.putStr notice.message else errors.putStr notice.message
    return notice.status.toUInt32
  | .done outcome =>
    writeBack tree outcome.tree
    output.putStr outcome.output
    errors.putStr outcome.errors
    match outcome.failure with
    | none => return 0
    | some failure =>
      errors.putStrLn ("Error: " ++ failure.message)
      return 1

end TestScout.Disk

/-- Runs the program with the words of its command line. -/
def main (words : List String) : IO UInt32 :=
  TestScout.Disk.run words
