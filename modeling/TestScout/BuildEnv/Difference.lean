import TestScout.BuildEnv.Basic

/-!
# Differences between environments

A difference tells which variables have to be set to build in one environment when another one is
the default. System and architecture are told also when they are not the host's, each together with
the host's.
-/

namespace TestScout

/-- The variables in which an environment differs from a default, with its own values. -/
structure EnvDifference where
  goarch : Option String
  /-- The architecture of the host, where one is told. -/
  hostArch : Option String
  goos : Option String
  /-- The operating system of the host, where one is told. -/
  hostOS : Option String
  goroot : Option String
  gopath : Option String
  cgo : Option String
  buildTags : Option String
  toolTags : Option String
deriving DecidableEq, Repr

namespace EnvDifference

/-- No difference. -/
def none : EnvDifference :=
  ⟨.none, .none, .none, .none, .none, .none, .none, .none, .none⟩

/-- A value where a condition holds. -/
def when {α : Type} (differs : Bool) (value : α) : Option α :=
  if differs then some value else .none

/-- Whether a part of the platform is told, which it is unless it is both the default and the
    host's. -/
def tellsPlatform (base own host : String) : Bool :=
  own != base || own != host

/-- How `env` differs from `base` on a host. -/
def between (host : Host) (base env : BuildEnv) : EnvDifference where
  goarch := when (tellsPlatform base.goarch env.goarch host.arch) env.goarch
  hostArch := when (tellsPlatform base.goarch env.goarch host.arch) host.arch
  goos := when (tellsPlatform base.goos env.goos host.os) env.goos
  hostOS := when (tellsPlatform base.goos env.goos host.os) host.os
  goroot := when (env.goroot != base.goroot) env.goroot
  gopath := when (env.gopath != base.gopath) env.gopath
  cgo := when (env.cgo != base.cgo) (if env.cgo then "true" else "false")
  buildTags := when (!env.buildTags.same base.buildTags) env.buildTags.render
  toolTags := when (!env.toolTags.same base.toolTags) env.toolTags.render

/-- Whether there is no difference. -/
def isEmpty (difference : EnvDifference) : Bool :=
  difference = none

/-- The variables in the order in which they are told, each with its value if it has one. -/
def fields (difference : EnvDifference) : List (String × Option String) := [
  ("GOARCH", difference.goarch), ("GOHOSTARCH", difference.hostArch),
  ("GOOS", difference.goos), ("GOHOSTOS", difference.hostOS),
  ("GOROOT", difference.goroot), ("GOPATH", difference.gopath),
  ("CGO_ENABLED", difference.cgo), ("GOFLAGS", difference.buildTags),
  ("GOEXPERIMENT", difference.toolTags)]

/-- The variables to set, in the order in which they are told. -/
def entries (difference : EnvDifference) : List (String × String) :=
  difference.fields.filterMap fun field => field.2.map fun value => (field.1, value)

/-- **Nothing is told exactly when nothing differs.** -/
theorem isEmpty_iff {difference : EnvDifference} :
    difference.isEmpty = true ↔ difference.entries = [] := by
  obtain ⟨arch, hostArch, os, hostOS, root, gopath, cgo, build, tool⟩ := difference
  simp [isEmpty, none, entries, fields]

end EnvDifference

end TestScout
