import TestScout.FileName
import TestScout.Header.Scan
import TestScout.Overlay.Basic
import TestScout.Platform
import TestScout.Settings.Basic
import TestScout.TagSet
import TestScout.Text.Decimal

/-!
# Build environments

An environment says for which platform, with which tags and from which directories a package is
built. It decides which tags hold, and by that which files belong to the build: a file belongs to
it when its name, its constraint and its need for cgo all agree with the environment. An
environment may carry unsaved contents, which stand in for the files on disk.
-/

namespace TestScout

/-- What a build depends on. -/
structure BuildEnv where
  /-- The operating system that is built for. -/
  goos : String
  /-- The architecture that is built for. -/
  goarch : String
  /-- The directory of the toolchain, empty if not known. -/
  goroot : String
  /-- The directories of sources outside modules, with colons between them. -/
  gopath : String
  /-- Whether files that use cgo belong to the build. -/
  cgo : Bool
  /-- The tags asked for by the user. -/
  buildTags : TagSet
  /-- The tags of the toolchain's experiments. -/
  toolTags : TagSet
  /-- The newest release whose tag holds, as the number behind its first dot. -/
  goMinor : Nat
  /-- The name of the compiler, which is a tag too. -/
  compiler : String
  /-- The directory for which the environment was found. -/
  dir : Option Path
  /-- Unsaved contents. -/
  overlay : Option Overlay
deriving DecidableEq, Repr

namespace BuildEnv

/-! ## 1. Tags of releases -/

/-- The start of every release tag. -/
def releaseStart : String := "go1."

/-- The tag of a release. -/
def releaseTag (minor : Nat) : String :=
  releaseStart ++ toString minor

/-- The tags of all releases up to the newest, the oldest first. -/
def releaseTags (env : BuildEnv) : List String :=
  (List.range' 1 env.goMinor).map releaseTag

/-- Whether the tag is the tag of a release up to the newest. -/
def isReleaseTag (env : BuildEnv) (tag : String) : Bool :=
  match after? releaseStart.toList tag.toList with
  | none => false
  | some digits =>
    match Decimal.digits? digits with
    | none => false
    | some minor => 1 ≤ minor && minor ≤ env.goMinor && releaseTag minor == tag

/-! ## 2. What holds -/

/-- Systems that are built like another one, with the tag of that one. -/
def kinSystems : List (String × String) :=
  [("linux", "android"), ("solaris", "illumos"), ("darwin", "ios")]

/-- Whether the platform makes the tag hold without being called by it. -/
def isImplied (env : BuildEnv) (tag : String) : Bool :=
  if tag = "unix" then Platform.unixOS.contains env.goos
  else kinSystems.lookup tag = some env.goos

/-- Whether a tag holds. -/
def matchesTag (env : BuildEnv) (tag : String) : Bool :=
  if tag = "cgo" then env.cgo
  else
    tag = env.goos || tag = env.goarch || tag = env.compiler || env.isImplied tag
      || env.buildTags.contains tag || env.toolTags.contains tag || env.isReleaseTag tag

/-- Whether a file with this name and header belongs to the build. -/
def matchesFile (env : BuildEnv) (name : String) (header : Header) : Bool :=
  (env.cgo || !header.importsC) && FileName.holds env.matchesTag name
    && header.constraint.all (·.eval env.matchesTag)

/-! ## 3. Environments from variables -/

/-- The start of every tag of an experiment. -/
def experimentStart : String := "goexperiment."

/-- The tags of a list of experiments. An entry that begins with `no` switches an experiment off
    and adds no tag. -/
def experimentTags (value : String) : TagSet :=
  TagSet.ofList
    (((value.toList.splitOn ',').map trim).filter (fun entry =>
        !entry.isEmpty && (after? ['n', 'o'] entry).isNone)
      |>.map fun entry => experimentStart ++ String.ofList entry)

/-- The value of a variable that is set and not blank. -/
def givenValue (value? : String → Option String) (name : String) : Option String :=
  (value? name).filter fun value => !(trim value.toList).isEmpty

/-- Whether the environment builds for the host. -/
def isNative (host : Host) (goos goarch : String) : Bool :=
  goos = host.os && goarch = host.arch

/-- Whether cgo is on, by the value of its variable; otherwise it is on for the host only. -/
def cgoOf (value : Option String) (native : Bool) : Bool :=
  match value with
  | some "1" => true
  | some "0" => false
  | _ => native

/-- The environment that the variables of a process on a host and the settings ask for. -/
def ofVariables (host : Host) (value? : String → Option String) (settings : Settings) : BuildEnv :=
  let given := givenValue value?
  let goos := (given "GOOS").getD host.os
  let goarch := (given "GOARCH").getD host.arch
  { goos, goarch
    goroot := (given "GOROOT").getD ""
    gopath :=
      ((given "GOPATH").or ((given "HOME").map fun home => (Path.child ⟨home⟩ "go").text)).getD ""
    cgo := cgoOf (given "CGO_ENABLED") (isNative host goos goarch)
    buildTags := TagSet.ofList settings.tags
    toolTags := ((given "GOEXPERIMENT").map experimentTags).getD TagSet.empty
    goMinor := settings.goMinor
    compiler := "gc"
    dir := none
    overlay := none }

end BuildEnv

end TestScout
