import TestScout.FileTree.Basic

/-!
# Listing a directory

The files of a directory are its regular files and the links that lead to one, in the order of
their names; a file whose name is no text is left out. Links are followed while listing: one that
leads nowhere, or back to the directory itself, makes the whole listing fail. The first such link
that the listing meets is the one that is reported, whatever its name.
-/

namespace TestScout

/-- Why a directory cannot be listed. -/
inductive ListError where
  /-- An entry, or the directory itself, cannot be followed. -/
  | access (path : Path) (cause : FileError)
  /-- An entry leads back to the directory. -/
  | loop (path dir : Path)
deriving DecidableEq, Repr

/-- The cause of a failed listing. -/
def ListError.message : ListError → String
  | .access path cause =>
    path.text ++ ": IO error for operation on " ++ path.text ++ ": " ++ cause.message
  | .loop path dir =>
    "File system loop found: " ++ path.text ++ " points to an ancestor " ++ dir.text

/-- Whether a path to be listed stands for the standard input, which holds no files. -/
def Path.isStandardInput (dir : Path) : Bool :=
  dir.same ⟨"-"⟩

namespace FileTree

/-! ## 1. What a listing meets -/

/-- What a listing meets in a directory. -/
inductive Met where
  /-- Something of this name. -/
  | named (name : String)
  /-- Something whose name is no text, and where it leads if it is a link. -/
  | nameless (shown : String) (target : Option Path)
deriving DecidableEq, Repr

/-- What a listing meets if an entry stands directly below a location. -/
def metBelow? (location : Location) (entry : Slot × Entry) : Option Met :=
  match entry.1 with
  | .named place =>
    match location.isPrefixOf? place with
    | some [name] => some (.named name)
    | _ => none
  | .nameless directory shown =>
    if directory = location then some (.nameless shown entry.2.target?) else none

/-- What a listing meets below a location. -/
def metBelow (tree : FileTree) (location : Location) : List Met :=
  tree.entries.filterMap (metBelow? location)

/-! ## 2. Files -/

/-- Whether a link of this path in a directory leads to a file, given where it leads. -/
def leadsToFile (tree : FileTree) (dir : Path) (location : Location) (path : Path) :
    Except FileError Location → Except ListError Bool
  | .error cause => .error (.access path cause)
  | .ok target =>
    match tree.entry? target with
    | some .directory => if target = location then .error (.loop path dir) else .ok false
    | some _ => .ok true
    | none => .ok false

/-- Whether the entry of this name in a directory is a file, links being followed. -/
def isFileBelow (tree : FileTree) (dir : Path) (location : Location) (name : String) :
    Except ListError Bool :=
  match tree.entry? (location ++ [name]) with
  | some (.link _) =>
    tree.leadsToFile dir location (dir.child name) (tree.resolve (dir.child name))
  | some (.file _) | some (.shared _ _) => .ok true
  | _ => .ok false

/-- The name that a listing takes of what it meets: that of a file, if the name is a text. -/
def taken (tree : FileTree) (dir : Path) (location : Location) :
    Met → Except ListError (Option String)
  | .named name =>
    (tree.isFileBelow dir location name).map fun isFile => if isFile then some name else none
  | .nameless shown (some target) =>
    (tree.leadsToFile dir location (dir.child shown) (tree.follow location target)).map
      fun _ => none
  | .nameless _ none => .ok none

/-- The names that a listing takes, in the order in which it meets them. -/
def filesAmong (tree : FileTree) (dir : Path) (location : Location) :
    List Met → Except ListError (List String)
  | [] => .ok []
  | met :: rest =>
    match tree.taken dir location met with
    | .error e => .error e
    | .ok name? =>
      match tree.filesAmong dir location rest with
      | .error e => .error e
      | .ok names => .ok (name?.toList ++ names)

/-- Whether a name has a wanted extension. -/
def hasExtension (wanted : Option String) (name : String) : Bool :=
  wanted.isNone || Path.extension name = wanted

/-- The names of the files directly in a directory, in order, if wanted only those with an
    extension. A file in place of the directory holds none. -/
def listFiles (tree : FileTree) (dir : Path) (extension : Option String) :
    Except ListError (List String) :=
  if dir.isStandardInput then .ok []
  else
    match tree.resolve dir with
    | .error cause => .error (.access dir cause)
    | .ok location =>
      match tree.entry? location with
      | some .directory =>
        match tree.filesAmong dir location (tree.metBelow location) with
        | .error e => .error e
        | .ok names => .ok (names.filter (hasExtension extension)).mergeSort
      | _ => .ok []

end FileTree

end TestScout
