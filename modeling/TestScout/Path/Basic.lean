/-!
# Paths

A path is its text, and its meaning is the list of its components: the root, a leading `.`, every
`..`, and the names. Repeated and trailing slashes and any `.` behind the first component mean
nothing, so that `a//b`, `a/./b` and `a/b/` are one path while `./a` differs from `a`. Two paths are
compared by their components; what is printed is always the text as it was given.
-/

namespace TestScout

/-! ## 1. Components -/

/-- A path as it was written. -/
structure Path where
  text : String
deriving DecidableEq, Repr, Inhabited

/-- One step of a path. -/
inductive Component where
  /-- The root directory, only in front. -/
  | root
  /-- The current directory, only in front of a relative path. -/
  | here
  /-- The parent directory. -/
  | up
  /-- The entry of this name. -/
  | name (entry : String)
deriving DecidableEq, Repr, Inhabited

namespace Path

/-- The pieces of the text between slashes. -/
def pieces (path : Path) : List (List Char) :=
  path.text.toList.splitOn '/'

/-- Whether the path starts at the root directory. -/
def isAbsolute (path : Path) : Bool :=
  path.text.toList.head? = some '/'

/-- The component a piece stands for when others stand before it. -/
def innerComponent (piece : List Char) : Option Component :=
  if piece = [] ∨ piece = ['.'] then none
  else if piece = ['.', '.'] then some .up
  else some (.name (String.ofList piece))

/-- The component a piece stands for at the start of a relative path. -/
def firstComponent (piece : List Char) : Option Component :=
  if piece = ['.'] then some .here else innerComponent piece

/-- The components of a path. -/
def components (path : Path) : List Component :=
  match path.pieces with
  | [] => []
  | first :: rest =>
    if path.isAbsolute then .root :: rest.filterMap innerComponent
    else (firstComponent first).toList ++ rest.filterMap innerComponent

/-- Equality of paths by components. -/
def same (x y : Path) : Bool :=
  x.components = y.components

@[simp] theorem same_iff {x y : Path} : x.same y = true ↔ x.components = y.components := by
  simp [same]

/-! ## 2. Putting paths together -/

/-- The text of one component. -/
def componentText : Component → List Char
  | .root => []
  | .here => ['.']
  | .up => ['.', '.']
  | .name entry => entry.toList

/-- The path with exactly these components. -/
def ofComponents : List Component → Path
  | [.root] => ⟨"/"⟩
  | components => ⟨String.ofList (['/'].intercalate (components.map componentText))⟩

/-- `path` seen from `dir`: an absolute path stands for itself, any other is appended behind one
    slash. -/
def join (dir path : Path) : Path :=
  if path.isAbsolute ∨ dir.text = "" then path
  else if dir.text.toList.getLast? = some '/' then ⟨dir.text ++ path.text⟩
  else ⟨dir.text ++ "/" ++ path.text⟩

/-- The entry `name` of a directory. -/
def child (dir : Path) (name : String) : Path :=
  dir.join ⟨name⟩

/-! ## 3. Taking paths apart -/

/-- Whether the piece at the end of the given pieces means nothing. The first piece of all means
    something unless it is empty. -/
def idle (piece : List Char) (isFirst : Bool) : Bool :=
  piece = [] || (piece = ['.'] && !isFirst)

/-- Reversed pieces without the ones at their head that mean nothing. -/
def dropIdle : List (List Char) → List (List Char)
  | [] => []
  | piece :: rest => if idle piece rest.isEmpty then dropIdle rest else piece :: rest

/-- The path without its last component, as it was written; none for the root and the empty path. -/
def parent (path : Path) : Option Path :=
  match dropIdle path.pieces.reverse with
  | [] => none
  | _ :: before =>
    match dropIdle before with
    | [] => some ⟨if path.isAbsolute then "/" else ""⟩
    | kept => some ⟨String.ofList (['/'].intercalate kept.reverse)⟩

/-- The name at the end of the path, if it ends in one. -/
def fileName (path : Path) : Option String :=
  match path.components.getLast? with
  | some (.name entry) => some entry
  | _ => none

/-- Whether the components of `dir` are the first ones of `path`. -/
def startsWith (path dir : Path) : Bool :=
  dir.components.isPrefixOf path.components

/-- The part of a file name behind its last dot, if something stands before that dot. -/
def extension (name : String) : Option String :=
  if name = ".." then none
  else
    let reversed := name.toList.reverse
    match reversed.dropWhile (· ≠ '.') with
    | [] => none
    | _ :: stem =>
      if stem = [] then none
      else some (String.ofList (reversed.takeWhile (· ≠ '.')).reverse)

end Path

end TestScout
