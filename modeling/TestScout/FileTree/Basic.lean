import TestScout.Path.Basic

/-!
# File trees

A file tree holds regular files, directories and symbolic links, each at a location: the list of
names that leads to it from the root. A path is followed step by step from the root or from the
current directory. A link on the way is replaced by its target; more than forty links in one walk
count as a loop. A file may have several names, so two paths denote the same file when they lead to
the same location or to two names of one file. Paths are texts, so no path leads to a thing whose
name is none; only who lists its directory meets it.
-/

namespace TestScout

/-! ## 1. Trees -/

/-- Why a path cannot be used. -/
inductive FileError where
  | notFound
  | notDirectory
  | isDirectory
  | exists
  | tooManyLinks
  | nameTooLong
  /-- The path holds the character that ends paths. -/
  | endsInside
  /-- What stands there may not be run. -/
  | notPermitted
deriving DecidableEq, Repr

/-- The wording of an error. -/
def FileError.message : FileError → String
  | .notFound => "No such file or directory (os error 2)"
  | .notDirectory => "Not a directory (os error 20)"
  | .isDirectory => "Is a directory (os error 21)"
  | .exists => "File exists (os error 17)"
  | .tooManyLinks => "Too many levels of symbolic links (os error 40)"
  | .nameTooLong => "File name too long (os error 36)"
  | .endsInside => "file name contained an unexpected NUL byte"
  | .notPermitted => "Permission denied (os error 13)"

/-- The names that lead from the root to a place. -/
abbrev Location := List String

/-- What stands at a location. -/
inductive Entry where
  | file (content : ByteArray)
  | directory
  | link (target : Path)
  /-- One name of a file that has several. Each of them has the file's number and its content. -/
  | shared (number : Nat) (content : ByteArray)

/-- Files are equal when their bytes are. -/
def decideFile (x y : ByteArray) : Decidable (Entry.file x = .file y) :=
  decidable_of_iff (x.data = y.data)
    ⟨fun h => congrArg Entry.file (ByteArray.ext h), fun h => by injection h with h; rw [h]⟩

@[inherit_doc decideFile]
def decideShared (n m : Nat) (x y : ByteArray) : Decidable (Entry.shared n x = .shared m y) :=
  decidable_of_iff (n = m ∧ x.data = y.data)
    ⟨fun h => by rw [h.1, ByteArray.ext h.2], fun h => by injection h with hn hx; simp [hn, hx]⟩

instance : DecidableEq Entry
  | .file x, .file y => decideFile x y
  | .directory, .directory => isTrue rfl
  | .link x, .link y => decidable_of_iff (x = y) ⟨congrArg Entry.link, fun h => by injection h⟩
  | .shared n x, .shared m y => decideShared n m x y
  | .file _, .directory => isFalse nofun
  | .file _, .link _ => isFalse nofun
  | .file _, .shared _ _ => isFalse nofun
  | .directory, .file _ => isFalse nofun
  | .directory, .link _ => isFalse nofun
  | .directory, .shared _ _ => isFalse nofun
  | .link _, .file _ => isFalse nofun
  | .link _, .directory => isFalse nofun
  | .link _, .shared _ _ => isFalse nofun
  | .shared _ _, .file _ => isFalse nofun
  | .shared _ _, .directory => isFalse nofun
  | .shared _ _, .link _ => isFalse nofun

/-- The entry as it is seen when it is opened: how many names a file has makes no difference. -/
def Entry.opened : Entry → Entry
  | .shared _ content => .file content
  | entry => entry

/-- The entry with a new content if it is a name of the file of this number. -/
def Entry.refilled (number : Nat) (content : ByteArray) : Entry → Entry
  | .shared other old => if other = number then .shared number content else .shared other old
  | entry => entry

/-- Where an entry leads if it is a link. -/
def Entry.target? : Entry → Option Path
  | .link target => some target
  | _ => none

/-- Under what an entry stands in a tree. -/
inductive Slot where
  /-- Under names that are texts, at a location. -/
  | named (location : Location)
  /-- In a directory, under a name that is no text; a message shows the name as `shown`. -/
  | nameless (directory : Location) (shown : String)
deriving DecidableEq, Repr

instance : Coe Location Slot := ⟨.named⟩

/-- The location of an entry that has one. -/
def Slot.location? : Slot → Option Location
  | .named location => some location
  | .nameless .. => none

/-- The location that an entry stands at or in. -/
def Slot.place : Slot → Location
  | .named location => location
  | .nameless directory _ => directory

/-- What makes a thing in a tree the same as another. -/
inductive Identity where
  /-- It has one name. -/
  | place (location : List String)
  /-- It is the file of this number, which has several names. -/
  | number (number : Nat)
deriving DecidableEq, Repr

/-- The entries in the order in which listings meet them, which is any order, and the location at
    which relative paths start. -/
structure FileTree where
  entries : List (Slot × Entry)
  current : Location
deriving DecidableEq

namespace FileTree

/-- What stands at a location. The root is always a directory. -/
def entry? (tree : FileTree) (location : Location) : Option Entry :=
  if location = [] then some .directory else tree.entries.lookup (.named location)

/-- The locations at which something stands, the root apart. -/
def locations (tree : FileTree) : List Location :=
  tree.entries.filterMap (·.1.location?)

/-- The path of a location. -/
def pathOf (location : Location) : Path :=
  Path.ofComponents (.root :: location.map .name)

/-! ## 2. Following a path -/

/-- One step of a walk through the tree. -/
inductive Step where
  /-- Stay in the directory. -/
  | stay
  /-- Go to the directory above. -/
  | up
  /-- Go to the entry of this name. -/
  | into (name : String)
deriving DecidableEq, Repr

/-- The step that a piece of a path asks for. -/
def stepOf (piece : List Char) : Step :=
  if piece = [] ∨ piece = ['.'] then .stay
  else if piece = ['.', '.'] then .up
  else .into (String.ofList piece)

/-- The steps of a path. A slash at the end asks to stay in what must be a directory. -/
def stepsOf (path : Path) : List Step :=
  path.pieces.map stepOf

/-- Where a walk ends. -/
inductive Spot where
  /-- At something that exists. -/
  | present (location : Location)
  /-- At a name that a directory does not hold. -/
  | absent (directory : Location) (name : String)
deriving DecidableEq, Repr

/-- The largest size in bytes of a name and of a path. -/
def nameLimit : Nat := 255

@[inherit_doc nameLimit]
def pathLimit : Nat := 4095

/-- Walks from a location; a link is left to `follow`. -/
def walkWith (tree : FileTree) (follow : Location → List Step → Except FileError Spot) :
    Location → List Step → Except FileError Spot
  | location, [] => .ok (.present location)
  | location, step :: rest =>
    match tree.entry? location with
    | some .directory =>
      match step with
      | .stay => walkWith tree follow location rest
      | .up => walkWith tree follow location.dropLast rest
      | .into name =>
        if nameLimit < name.utf8ByteSize then .error .nameTooLong
        else
          match tree.entry? (location ++ [name]) with
          | some (.link target) =>
            follow (if target.isAbsolute then [] else location) (stepsOf target ++ rest)
          | some _ => walkWith tree follow (location ++ [name]) rest
          | none => if rest = [] then .ok (.absent location name) else .error .notFound
    | _ => .error .notDirectory

/-- Walks from a location through at most as many links as the number says. -/
def walk (tree : FileTree) : Nat → Location → List Step → Except FileError Spot
  | 0 => walkWith tree fun _ _ => .error .tooManyLinks
  | links + 1 => walkWith tree (walk tree links)

/-- How many links one walk may follow. -/
def linkLimit : Nat := 40

/-- Where a path leads, the last name of which may be missing. -/
def locate (tree : FileTree) (path : Path) : Except FileError Spot :=
  if path.text = "" then .error .notFound
  else if '\x00' ∈ path.text.toList then .error .endsInside
  else if pathLimit < path.text.utf8ByteSize then .error .nameTooLong
  else walk tree linkLimit (if path.isAbsolute then [] else tree.current) (stepsOf path)

/-- The location that a link in a directory leads to. The links on the way to the directory are not
    counted. -/
def follow (tree : FileTree) (directory : Location) (target : Path) : Except FileError Location :=
  match tree.walk (linkLimit - 1) (if target.isAbsolute then [] else directory)
    (stepsOf target) with
  | .error e => .error e
  | .ok (.present location) => .ok location
  | .ok (.absent _ _) => .error .notFound

/-- The location that a path denotes. -/
def resolve (tree : FileTree) (path : Path) : Except FileError Location :=
  match tree.locate path with
  | .error e => .error e
  | .ok (.present location) => .ok location
  | .ok (.absent _ _) => .error .notFound

/-! ## 3. Asking about a path -/

/-- What a path denotes. -/
def stat (tree : FileTree) (path : Path) : Except FileError Entry :=
  match tree.resolve path with
  | .error e => .error e
  | .ok location =>
    match tree.entry? location with
    | some entry => .ok entry.opened
    | none => .error .notFound

/-- Whether a path denotes something. -/
def pathExists (tree : FileTree) (path : Path) : Bool :=
  (tree.stat path).isOk

/-- Whether a path denotes a directory. -/
def isDirectory (tree : FileTree) (path : Path) : Bool :=
  match tree.stat path with
  | .ok .directory => true
  | _ => false

/-- Whether a path denotes a regular file. -/
def isFile (tree : FileTree) (path : Path) : Bool :=
  match tree.stat path with
  | .ok (.file _) => true
  | _ => false

/-- The bytes of the file that a path denotes. -/
def bytes (tree : FileTree) (path : Path) : Except FileError ByteArray :=
  match tree.stat path with
  | .error e => .error e
  | .ok (.file content) => .ok content
  | .ok _ => .error .isDirectory

/-- The path of the location that a path denotes; the path itself where it denotes nothing. -/
def canonical (tree : FileTree) (path : Path) : Path :=
  match tree.resolve path with
  | .ok location => pathOf location
  | .error _ => path

/-- What stands at a location, apart from its names. -/
def identity (tree : FileTree) (location : Location) : Identity :=
  match tree.entry? location with
  | some (.shared number _) => .number number
  | _ => .place location

/-- Whether two paths denote one thing. -/
def denoteSame (tree : FileTree) (x y : Path) : Bool :=
  match tree.resolve x, tree.resolve y with
  | .ok a, .ok b => tree.identity a = tree.identity b
  | _, _ => false

/-- The path of the current directory. -/
def currentPath (tree : FileTree) : Path :=
  pathOf tree.current

/-- **Denoting the same is symmetric.** -/
theorem denoteSame_comm (tree : FileTree) (x y : Path) :
    tree.denoteSame x y = tree.denoteSame y x := by
  unfold denoteSame
  cases tree.resolve x <;> cases tree.resolve y <;> simp [eq_comm]

/-! ## 4. Changing a tree -/

/-- The tree with an entry at a location, in place of one that stands there. -/
def put (tree : FileTree) (location : Location) (entry : Entry) : FileTree :=
  if tree.entries.any (·.1 = .named location) then
    { tree with entries := tree.entries.map fun old =>
        if old.1 = .named location then (.named location, entry) else old }
  else { tree with entries := tree.entries ++ [(.named location, entry)] }

/-- The tree with a content for the file of a number, under all its names. -/
def refill (tree : FileTree) (number : Nat) (content : ByteArray) : FileTree :=
  { tree with entries := tree.entries.map fun old => (old.1, old.2.refilled number content) }

/-- The tree with a directory at a path; the directory above it has to be there. -/
def createDirectory (tree : FileTree) (path : Path) : Except FileError FileTree :=
  if tree.isDirectory path then .ok tree
  else
    match tree.locate path with
    | .error e => .error e
    | .ok (.absent directory name) => .ok (tree.put (directory ++ [name]) .directory)
    | .ok (.present _) => .error .exists

/-- The tree with a directory at a path and at every path above it. -/
def createDirectories (tree : FileTree) (path : Path) : Except FileError FileTree :=
  let components := path.components
  let above := (List.range components.length).map fun n => Path.ofComponents (components.take n)
  let tree := above.foldl (fun tree dir => (tree.createDirectory dir).toOption.getD tree) tree
  tree.createDirectory (Path.ofComponents components)

/-- The tree without a location and what lies below it. -/
def remove (tree : FileTree) (location : Location) : FileTree :=
  { tree with entries := tree.entries.filter fun entry => !location.isPrefixOf entry.1.place }

/-- The tree in which the file that a path denotes has this content; a missing file is made. -/
def write (tree : FileTree) (path : Path) (content : ByteArray) : Except FileError FileTree :=
  match tree.locate path with
  | .error e => .error e
  | .ok (.absent directory name) => .ok (tree.put (directory ++ [name]) (.file content))
  | .ok (.present location) =>
    match tree.entry? location with
    | some (.file _) => .ok (tree.put location (.file content))
    | some (.shared number _) => .ok (tree.refill number content)
    | _ => .error .isDirectory

end FileTree

end TestScout
