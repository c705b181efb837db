import TestScout.BuildEnv.Basic
import TestScout.Failure

/-!
# Finding an environment for a file

A file that the environment at hand does not build may belong to the build of another one. The
search changes as little as it can: platform, cgo and the tags that the file mentions are its
dimensions, each with the present value first, and the cost of a combination is the number of
dimensions that it changes. Of the combinations that build the file the first among the cheapest is
taken.
-/

namespace TestScout.BuildEnv

/-! ## 1. Choices -/

/-- One change to an environment. -/
inductive Choice where
  | goos (value : String)
  | goarch (value : String)
  | cgo (on : Bool)
  | tag (name : String) (on : Bool)
deriving DecidableEq, Repr

/-- The environment with a tag switched on or off, among the tags of experiments or of the user. -/
def setTag (env : BuildEnv) (name : String) (on : Bool) : BuildEnv :=
  let change (set : TagSet) : TagSet := if on then set.insert name else set.remove name
  if (after? experimentStart.toList name.toList).isSome then
    { env with toolTags := change env.toolTags }
  else { env with buildTags := change env.buildTags }

/-- The environment with one change. -/
def choose (env : BuildEnv) : Choice → BuildEnv
  | .goos value => { env with goos := value }
  | .goarch value => { env with goarch := value }
  | .cgo on => { env with cgo := on }
  | .tag name on => env.setTag name on

/-! ## 2. Dimensions of the search -/

/-- What one dimension offers, the present value first. -/
abbrev Dimension := List Choice

/-- How many tags at most are switched. -/
def freeTagLimit : Nat := 8

/-- The systems tried in place of the present one, in this order. -/
def otherSystems : List String := ["linux", "darwin", "windows", "freebsd"]

/-- The architectures tried in place of the present one, in this order. -/
def otherMachines : List String := ["amd64", "arm64", "386"]

/-- Whether the tag is the tag of any release. -/
def looksLikeRelease (tag : String) : Bool :=
  match after? releaseStart.toList tag.toList with
  | none => false
  | some rest => !rest.isEmpty && rest.all Char.isDigit

/-- Whether the search may switch the tag on and off. -/
def isFreeTag (tag : String) : Bool :=
  !(Platform.isOS tag || Platform.isArch tag || looksLikeRelease tag
    || ["cgo", "unix", "gc", "gccgo"].contains tag)

/-- The tags that a file's name and constraint mention, each once. -/
def mentionedTags (name : String) (header : Header) : List String :=
  let ofName := (FileName.target name).tags
  match header.constraint with
  | none => ofName
  | some constraint => ofName ++ constraint.tags.filter fun tag => !ofName.contains tag

/-- The first of the given values that is neither present nor mentioned. -/
def freshValue (values mentioned : List String) (present : String) : Option String :=
  values.find? fun value => !mentioned.contains value && value != present

/-- The systems to try. -/
def systems (env : BuildEnv) (mentioned : List String) : List String :=
  (env.goos :: mentioned.filter Platform.isOS
    ++ (if mentioned.contains "unix" then ["linux"] else [])
    ++ (freshValue otherSystems mentioned env.goos).toList).eraseDups

/-- The architectures to try. -/
def machines (env : BuildEnv) (mentioned : List String) : List String :=
  (env.goarch :: mentioned.filter Platform.isArch
    ++ (freshValue otherMachines mentioned env.goarch).toList).eraseDups

/-- The dimension of cgo, for files to which it matters. -/
def cgoDimension (env : BuildEnv) (mentioned : List String) (header : Header) : List Dimension :=
  if header.importsC || mentioned.contains "cgo" then [[.cgo env.cgo, .cgo !env.cgo]] else []

/-- The dimension of a tag. -/
def tagDimension (env : BuildEnv) (tag : String) : Dimension :=
  let on := env.matchesTag tag
  [.tag tag on, .tag tag !on]

/-- All dimensions for a file. -/
def dimensions (env : BuildEnv) (name : String) (header : Header) : List Dimension :=
  let mentioned := mentionedTags name header
  [(env.systems mentioned).map .goos, (env.machines mentioned).map .goarch]
    ++ env.cgoDimension mentioned header
    ++ ((mentioned.filter isFreeTag).take freeTagLimit).map env.tagDimension

/-! ## 3. Combinations -/

/-- One choice of every dimension, with the number of dimensions that it changes. -/
structure Combination where
  cost : Nat
  choices : List Choice
deriving DecidableEq, Repr

/-- All combinations; the last dimension varies fastest. -/
def combinations : List Dimension → List Combination
  | [] => [⟨0, []⟩]
  | [] :: _ => []
  | (present :: others) :: rest =>
    let tails := combinations rest
    tails.map (fun tail => ⟨tail.cost, present :: tail.choices⟩)
      ++ others.flatMap fun choice =>
        tails.map fun tail => ⟨tail.cost + 1, choice :: tail.choices⟩

/-- The environment with all choices of a combination. -/
def apply (env : BuildEnv) (combination : Combination) : BuildEnv :=
  combination.choices.foldl choose env

/-- The environments of the search, the cheapest first. -/
def candidates (env : BuildEnv) (name : String) (header : Header) : List BuildEnv :=
  ((combinations (env.dimensions name header)).mergeSort fun x y => x.cost ≤ y.cost).map env.apply

/-! ## 4. Resolving -/

/-- The text of a source, an unsaved one first. -/
def effectiveSource (tree : FileTree) (env : BuildEnv) (path : Path) : Except Failure String :=
  match env.overlay.bind fun overlay => overlay.lookup tree path with
  | some content => .ok content
  | none =>
    match SourceText.read tree path with
    | .ok text => .ok text
    | .error cause => .error (.unreadable path cause)

/-- Why the search finds nothing for a file with this header. -/
def whyNothing (header : Header) : MatchFailure :=
  match header.constraint with
  | some constraint => .unsatisfied constraint
  | none => if header.importsC then .needsCgo else .everyPlatformExcluded

/-- An environment that builds a file with this name and header: the present one if it does, else
    the cheapest change that does. -/
def fitting (env : BuildEnv) (name : String) (header : Header) : Option BuildEnv :=
  if env.matchesFile name header then some env
  else (env.candidates name header).find? fun candidate => candidate.matchesFile name header

/-- The environment that builds a file, for the directory of the file. -/
def resolveFor (tree : FileTree) (env : BuildEnv) (path : Path) : Except Failure BuildEnv :=
  match path.fileName with
  | none => .error (.noMatch path .notFileName)
  | some name =>
    match env.effectiveSource tree path with
    | .error failure => .error failure
    | .ok source =>
      match Header.scan source.toList with
      | .error cause => .error (.noMatch path (.badConstraint cause))
      | .ok header =>
        match env.fitting name header with
        | some found => .ok { found with dir := some (path.parent.getD ⟨"."⟩) }
        | none => .error (.noMatch path (whyNothing header))

/-- **What is found builds the file.** -/
theorem matchesFile_of_fitting {env found : BuildEnv} {name : String} {header : Header}
    (h : env.fitting name header = some found) : found.matchesFile name header = true := by
  unfold fitting at h
  split at h
  · simp_all
  · exact (List.find?_eq_some_iff_append.mp h).1

end TestScout.BuildEnv
