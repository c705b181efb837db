import TestScout.BuildEnv.Basic
import TestScout.Overlay.Payload

/-!
# Flags for the environment

Every command takes flags that change the environment which the variables and settings ask for. A
flag that is given wins, an empty one too.
-/

namespace TestScout

/-- The flags that change an environment. -/
structure BuildFlags where
  tags : Option String
  goos : Option String
  goarch : Option String
  cgo : Option Bool
  overlay : Option String
deriving DecidableEq, Repr, Inhabited

namespace BuildFlags

/-- No flags. -/
def none : BuildFlags := ⟨.none, .none, .none, .none, .none⟩

/-- The environment with the flags that need no file. -/
def applyPlain (flags : BuildFlags) (env : BuildEnv) : BuildEnv :=
  { env with
    goos := flags.goos.getD env.goos
    goarch := flags.goarch.getD env.goarch
    cgo := flags.cgo.getD env.cgo
    buildTags := (flags.tags.map TagSet.parse).getD env.buildTags }

/-- The environment with all flags. An overlay without contents changes nothing. -/
def apply (tree : FileTree) (flags : BuildFlags) (env : BuildEnv) : Except Failure BuildEnv :=
  let env := flags.applyPlain env
  match flags.overlay with
  | .none => .ok env
  | some argument =>
    match Overlay.load tree argument with
    | .error failure => .error failure
    | .ok .none => .ok env
    | .ok (some overlay) => .ok { env with overlay := some overlay }

end BuildFlags

end TestScout
