import TestScout.Shell.Script
import TestScout.TestCommand

/-!
# Running a shell script

A script runs by itself: its commands are the few that are built in, and all it leaves is what it
wrote and how it ended. A command that is not built in is not found.
-/

namespace TestScout.Shell

/-! ## 1. What a script sees and leaves -/

/-- What stays the same while a script runs. -/
structure Scene where
  /-- The path of the current directory. -/
  dir : String
  script : String
  arguments : List String
deriving DecidableEq, Repr

/-- What a script has done so far. -/
structure State where
  bindings : List (String × String)
  status : Nat
  output : String
  errors : String
deriving DecidableEq, Repr

/-- The number that a script knows its own process by. -/
def processNumber : Nat := 2

/-- The state before the first command. -/
def State.start (bindings : List (String × String)) : State := ⟨bindings, 0, "", ""⟩

/-- What is left after a state. -/
def State.ending (state : State) (status : ExitStatus) : Ending :=
  ⟨state.output, state.errors, status⟩

/-- The state after a text has been written. -/
def State.write (state : State) (target : Target) (text : String) : State :=
  match target with
  | .output => { state with output := state.output ++ text }
  | .errors => { state with errors := state.errors ++ text }
  | .nowhere => state

/-! ## 2. Values of words -/

/-- The value of a parameter, if it has one. -/
def valueOf (scene : Scene) (state : State) : Parameter → Option String
  | .named name => state.bindings.lookup name
  | .script => some scene.script
  | .argument number => scene.arguments[number - 1]?
  | .arguments _ =>
    if scene.arguments = [] then none else some (" ".intercalate scene.arguments)
  | .count => some (toString scene.arguments.length)
  | .status => some (toString state.status)
  | .process => some (toString processNumber)

/-- The value of a parameter or what stands in for it. -/
def valueWith (value : Option String) (substitute : Option Substitute) : List Char :=
  match value, substitute with
  | some text, some other => if other.forEmpty ∧ text = "" then other.text else text.toList
  | some text, none => text.toList
  | none, some other => other.text
  | none, none => []

/-- The atoms of a part. -/
def atomsOf (scene : Scene) (state : State) : Part → List Atom
  | .char c => [.char c]
  | .hold => [.hold]
  | .value (.arguments false) none true =>
    [.cut].intercalate (scene.arguments.map fun argument => .hold :: firmly argument.toList)
  | .value parameter substitute quoted =>
    let text := valueWith (valueOf scene state parameter) substitute
    if quoted then firmly text else loosely text

/-- The fields that words turn into. -/
def fieldsOf (scene : Scene) (state : State) (words : List Word) : List String :=
  words.flatMap fun word => fields (word.flatMap (atomsOf scene state))

/-- The name and the value of a word that sets a variable. -/
def assignment? : List Char → Word → Option (String × Word)
  | name, .char c :: rest =>
    if c = '=' then
      match name.reverse with
      | first :: more =>
        if isNameStart first then some (String.ofList (first :: more), rest) else none
      | [] => none
    else if isNameChar c then assignment? (c :: name) rest
    else none
  | _, _ => none

/-- The text of a word that is not cut into fields. -/
def textOf (scene : Scene) (state : State) (word : Word) : String :=
  let whole := word.map fun
    | .value parameter substitute _ => .value parameter substitute true
    | part => part
  " ".intercalate (fields (whole.flatMap (atomsOf scene state)))

/-! ## 3. Commands that are built in -/

/-- Characters that a backslash stands before when they are echoed. -/
def echoEscapes : List (Char × Char) :=
  [('\\', '\\'), ('a', '\x07'), ('b', '\x08'), ('f', '\x0c'), ('n', '\n'), ('r', '\r'),
    ('t', '\t'), ('v', '\x0b')]

/-- The characters that are echoed, and whether a line end follows them. -/
def echoed : List Char → List Char × Bool
  | [] => ([], true)
  | '\\' :: c :: rest =>
    if c = 'c' then ([], false)
    else
      match echoEscapes.lookup c with
      | some meant => (meant :: (echoed rest).1, (echoed rest).2)
      | none =>
        let (text, ends) := echoed rest
        ('\\' :: c :: text, ends)
  | c :: rest =>
    let (text, ends) := echoed rest
    (c :: text, ends)

/-- What `echo` writes. -/
def echo (arguments : List String) : String :=
  let (wantsEnd, words) := match arguments with
    | "-n" :: rest => (false, rest)
    | _ => (true, arguments)
  let (text, ends) := echoed (" ".intercalate words).toList
  String.ofList (text ++ if wantsEnd && ends then ['\n'] else [])

/-- The status that a text asks for, if it is a number. -/
def statusOf (text : String) : Option Nat :=
  ((Decimal.digits? text.toList).filter (· < Nat.pow 2 31)).map (· % 256)

/-- The signal of a name or number; zero is the signal that does nothing. -/
def signalOf (text : String) : Option Nat :=
  if text = "0" then some 0
  else
    (ExitStatus.signalNames.find? fun entry =>
      entry.2 = "SIG" ++ text ∨ toString entry.1 = text).map (·.1)

/-- The signal that the arguments of `kill` send to the script itself. -/
def ownSignal (arguments : List String) : Option Nat :=
  let own := toString processNumber
  match arguments with
  | [process] => if process = own then some 15 else none
  | [option, process] => if process = own then signalOf (option.drop 1).toString else none
  | ["-s", signal, process] => if process = own then signalOf signal else none
  | _ => none

/-- What a script says about a command of a line. -/
def Scene.complaint (scene : Scene) (line : Nat) (text : String) : String :=
  scene.script ++ ": " ++ toString line ++ ": " ++ text ++ "\n"

/-- How a command goes on or ends. -/
inductive Outcome where
  | next (state : State)
  | done (ending : Ending)

/-- The state with the status of a command. -/
def State.after (state : State) (status : Nat) : Outcome :=
  .next { state with status := status }

/-- Carries out a command of a line by the fields of its words. -/
def perform (scene : Scene) (state : State) (line : Nat) (targets : Targets) :
    List String → Outcome
  | [] | ":" :: _ | "true" :: _ => state.after 0
  | "false" :: _ => state.after 1
  | "echo" :: arguments => (state.write targets.output (echo arguments)).after 0
  | "pwd" :: _ => (state.write targets.output (scene.dir ++ "\n")).after 0
  | ["exit"] => .done (state.ending (.code state.status))
  | "exit" :: status :: _ =>
    match statusOf status with
    | some number => .done (state.ending (.code number))
    | none =>
      let note := scene.complaint line ("exit: Illegal number: " ++ status)
      .done ((state.write targets.errors note).ending (.code 2))
  | "kill" :: arguments =>
    match ownSignal arguments with
    | some 0 => state.after 0
    | some signal => .done (state.ending (.signal signal))
    | none => state.after 1
  | name :: _ =>
    (state.write targets.errors (scene.complaint line (name ++ ": not found"))).after 127

/-! ## 4. Scripts -/

/-- The variables that words at the start of a command set, and the other words. -/
def settle (scene : Scene) : State → List Word → State × List Word
  | state, [] => (state, [])
  | state, word :: rest =>
    match assignment? [] word with
    | some (name, value) =>
      settle scene
        { state with bindings := (name, textOf scene state value) :: state.bindings } rest
    | none => (state, word :: rest)

/-- Whether a command is carried out after a status. -/
def Joint.holds (joint : Joint) (status : Nat) : Bool :=
  match joint with
  | .always => true
  | .onSuccess => status = 0
  | .onFailure => status ≠ 0

/-- Carries out commands one after the other. -/
def runFrom (scene : Scene) (isWhole : Bool) : State → List Command → Ending
  | state, [] => state.ending (.code (if isWhole then state.status else 2))
  | state, command :: rest =>
    if command.joint.holds state.status then
      let (settled, words) := settle scene state command.words
      match perform scene settled command.line command.targets (fieldsOf scene settled words) with
      | .next state => runFrom scene isWhole state rest
      | .done ending => ending
    else runFrom scene isWhole state rest

/-- Runs a script under variables. -/
def Script.run (script : Script) (scene : Scene) (bindings : List (String × String)) : Ending :=
  runFrom scene script.isWhole (.start bindings) script.commands

end TestScout.Shell
