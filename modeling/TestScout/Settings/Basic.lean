/-!
# Settings

What a user can set once for all commands. Every setting has a value from the start.
-/

namespace TestScout

/-- The settings of the program. -/
structure Settings where
  /-- The build tags that hold without being asked for. -/
  tags : List String
  /-- The program that runs tests. -/
  goCommand : String
  /-- The newest release of the toolchain, as the number behind its first dot. -/
  goMinor : Nat
  /-- How much is logged. -/
  logLevel : String
deriving DecidableEq, Repr

/-- The settings of a user who sets nothing. -/
def Settings.standard : Settings where
  tags := []
  goCommand := "go"
  goMinor := 23
  logLevel := "warn"

instance : Inhabited Settings := ⟨Settings.standard⟩

end TestScout
