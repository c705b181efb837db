/-!
# Operating systems and architectures

The names of platforms that have a meaning in file names and build constraints, and which of them
count as Unix. The host, on which the program runs, is known by the names that its compiler has for
it; some of them differ from those of the toolchain.
-/

namespace TestScout

/-! ## 1. The host -/

/-- The machine that the program runs on. -/
structure Host where
  /-- Its operating system, as the compiler calls it. -/
  system : String
  /-- Its architecture, as the compiler calls it. -/
  machine : String
  /-- Whether it stores the low byte of a number first. -/
  littleEndian : Bool
deriving DecidableEq, Repr

namespace Host

/-- The operating system of the host. -/
def os (host : Host) : String :=
  match host.system with
  | "macos" => "darwin"
  | other => other

/-- The architecture of the host. -/
def arch (host : Host) : String :=
  match host.machine with
  | "x86_64" => "amd64"
  | "x86" => "386"
  | "aarch64" => "arm64"
  | "loongarch64" => "loong64"
  | "powerpc" => "ppc"
  | "powerpc64" => if host.littleEndian then "ppc64le" else "ppc64"
  | "mips" => if host.littleEndian then "mipsle" else "mips"
  | "mips64" => if host.littleEndian then "mips64le" else "mips64"
  | "wasm32" => "wasm"
  | other => other

/-- The host that the program is built for. -/
def built : Host := ⟨"linux", "x86_64", true⟩

end Host

namespace Platform

/-! ## 2. Known platforms -/

/-- Every operating system the toolchain knows. -/
def knownOS : List String := [
  "aix", "android", "darwin", "dragonfly", "freebsd", "hurd", "illumos", "ios", "js", "linux",
  "nacl", "netbsd", "openbsd", "plan9", "solaris", "wasip1", "windows", "zos"]

/-- The operating systems on which the tag `unix` holds. -/
def unixOS : List String := [
  "aix", "android", "darwin", "dragonfly", "freebsd", "hurd", "illumos", "ios", "linux",
  "netbsd", "openbsd", "solaris"]

/-- Every architecture the toolchain knows. -/
def knownArch : List String := [
  "386", "amd64", "amd64p32", "arm", "armbe", "arm64", "arm64be", "loong64", "mips", "mipsle",
  "mips64", "mips64le", "mips64p32", "mips64p32le", "ppc", "ppc64", "ppc64le", "riscv",
  "riscv64", "s390", "s390x", "sparc", "sparc64", "wasm"]

/-- Whether the tag names an operating system. -/
def isOS (tag : String) : Bool :=
  knownOS.contains tag

/-- Whether the tag names an architecture. -/
def isArch (tag : String) : Bool :=
  knownArch.contains tag

theorem isOS_iff {tag : String} : isOS tag = true ↔ tag ∈ knownOS := by
  simp [isOS]

theorem isArch_iff {tag : String} : isArch tag = true ↔ tag ∈ knownArch := by
  simp [isArch]

end Platform

end TestScout
