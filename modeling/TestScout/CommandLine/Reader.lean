import TestScout.CommandLine.Argument
import TestScout.Text.Split

/-!
# Reading a command line

Words are read from left to right. A flag that takes a value gets the next word, and its value is
looked at when the next argument is known: an argument that nobody knows is refused before a wrong
value in front of it. The arguments behind a command are looked at before those in front of it.
-/

namespace TestScout.CommandLine

/-! ## 1. What has been read -/

/-- What has been read at one level. -/
structure Reading where
  /-- The arguments with their values, in the order in which they were given. -/
  given : List (Key × String)
  /-- An argument whose values have not been looked at. -/
  pending : Option (Argument × List String)
  /-- How many places are taken. -/
  taken : Nat
  /-- Whether `--` has been read. -/
  behindDashes : Bool
deriving DecidableEq, Repr

namespace Reading

/-- Nothing has been read. -/
def start : Reading := ⟨[], none, 0, false⟩

/-- Whether an argument has been given. -/
def has (reading : Reading) (key : Key) : Bool :=
  reading.given.any (·.1 = key)

/-- The values of an argument. -/
def values (reading : Reading) (key : Key) : List String :=
  (reading.given.filter (·.1 = key)).map (·.2)

/-- The value of an argument. -/
def value? (reading : Reading) (key : Key) : Option String :=
  reading.given.lookup key

/-- The reading with values of an argument. -/
def take (reading : Reading) (argument : Argument) (values : List String) :
    Except UsageNotice Reading :=
  if values = [] then .error .badValue
  else if reading.has argument.key ∧ argument.several = false then .error .repeated
  else if values.all argument.kind.admits then
    .ok { reading with given := reading.given ++ values.map fun value => (argument.key, value) }
  else .error .badValue

/-- The reading with nothing pending. -/
def settle (reading : Reading) : Except UsageNotice Reading :=
  match reading.pending with
  | none => .ok reading
  | some (argument, values) => { reading with pending := none }.take argument values

/-- The reading with a switch or counter. -/
def raise (reading : Reading) (argument : Argument) : Except UsageNotice Reading :=
  match reading.settle with
  | .error notice => .error notice
  | .ok reading =>
    match argument.key with
    | .help => .error .helpAsked
    | .version => .error .versionAsked
    | _ => reading.take argument [""]

/-- Whether a flag waits for its value. -/
def awaits (reading : Reading) : Bool :=
  match reading.pending with
  | some (_, []) => true
  | _ => false

end Reading

/-! ## 2. Words -/

/-- A word as a flag of a name, with the value that is attached to it. -/
def longFlag? (word : String) : Option (String × Option String) :=
  (after? ['-', '-'] word.toList).map fun text =>
    (String.ofList (text.takeWhile (· ≠ '=')),
      match text.dropWhile (· ≠ '=') with
      | [] => none
      | _ :: value => some (String.ofList value))

/-- A word as a row of flags by their letters. -/
def letters? (word : String) : Option (List Char) :=
  match word.toList with
  | '-' :: first :: rest => some (first :: rest)
  | _ => none

/-- Reads a flag by its name. -/
def readLong (level : Level) (reading : Reading) (name : String) (value : Option String) :
    Except UsageNotice Reading :=
  match level.named? name with
  | none => .error .unknownArgument
  | some argument =>
    if argument.kind.takesValue then
      match reading.settle, value with
      | .error notice, _ => .error notice
      | .ok reading, some value => reading.take argument [value]
      | .ok reading, none => .ok { reading with pending := some (argument, []) }
    else if value.isSome then .error .unwantedValue
    else reading.raise argument

/-- Reads flags by their letters. -/
def readLetters (level : Level) : Reading → List Char → Except UsageNotice Reading
  | reading, [] => .ok reading
  | reading, letter :: rest =>
    match level.lettered? letter with
    | none => .error .unknownArgument
    | some argument =>
      match reading.raise argument with
      | .error notice => .error notice
      | .ok reading => readLetters level reading rest

/-- Why a word has no place. -/
def misplaced (level : Level) (reading : Reading) (word : String) : UsageNotice :=
  if level.takesVerb ∧ ¬(reading.behindDashes ∧ (Verb.words.lookup word).isSome) then .unknownVerb
  else .unknownArgument

/-- Reads a word by its place. -/
def readPlaced (level : Level) (reading : Reading) (word : String) : Except UsageNotice Reading :=
  match level.place? reading.taken reading.behindDashes with
  | none => .error (misplaced level reading word)
  | some (index, place) =>
    let argument := place.argument
    match reading.pending with
    | some (other, values) =>
      if other = argument ∧ argument.several then
        .ok { reading with pending := some (argument, values ++ [word]) }
      else
        reading.settle.map fun reading =>
          { reading with
            pending := some (argument, [word])
            taken := if argument.several then index else index + 1 }
    | none =>
      .ok { reading with
        pending := some (argument, [word])
        taken := if argument.several then index else index + 1 }

/-- What the words behind `help` get: help, if they name commands. No command has others in it. -/
def helpOn : List String → UsageNotice
  | [] => .helpAsked
  | [word] => if word = "help" ∨ (Verb.words.lookup word).isSome then .helpAsked else .unknownVerb
  | _ => .unknownVerb

/-- Reads the words of a level, up to a command if one can stand there. -/
def readLevel (level : Level) :
    Reading → List String → Except UsageNotice (Reading × Option (Verb × List String))
  | reading, [] => .ok (reading, none)
  | reading, word :: rest =>
    if reading.behindDashes then
      match readPlaced level reading word with
      | .error notice => .error notice
      | .ok reading => readLevel level reading rest
    else if level.takesVerb ∧ reading.awaits = false ∧ word = "help" then .error (helpOn rest)
    else
      match if level.takesVerb && !reading.awaits then Verb.words.lookup word else none with
      | some verb => .ok (reading, some (verb, rest))
      | none =>
        if word = "--" then readLevel level { reading with behindDashes := true } rest
        else
          let read := match longFlag? word, letters? word, reading.pending with
            | some (name, value), _, _ => readLong level reading name value
            | _, some letters, _ => readLetters level reading letters
            | _, _, some (argument, []) =>
              .ok { reading with pending := some (argument, [word]) }
            | _, _, _ => readPlaced level reading word
          match read with
          | .error notice => .error notice
          | .ok reading => readLevel level reading rest

/-! ## 3. Command lines -/

/-- The arguments behind a command. -/
def readVerb (verb : Verb) (words : List String) : Except UsageNotice Reading :=
  let level := levelOf verb
  match readLevel level .start words with
  | .error notice => .error notice
  | .ok (reading, _) =>
    match reading.settle with
    | .error notice => .error notice
    | .ok reading =>
      if level.places.all fun place => !place.required || reading.has place.argument.key then
        .ok reading
      else .error .missingArgument

/-- A path that is given, or the current directory. -/
def pathOf (reading : Reading) : Path :=
  ⟨(reading.value? .path).getD "."⟩

/-- What a command with its arguments is to do. -/
def requestOf (verb : Verb) (own : Reading) : Request :=
  match verb with
  | .list => .list ((own.value? .path).map (⟨·⟩))
  | .env => .env (pathOf own) (if own.value? .form = some "text" then .text else .json)
  | .function => .function ((own.value? .query).getD "")
  | .escape => .escape (own.values .paths)
  | .run =>
    .run (pathOf own)
      { verbose := own.has .testVerbose
        short := own.has .short
        race := own.has .race
        pattern := own.value? .pattern
        compileDir := (own.value? .compileDir).map (⟨·⟩)
        extra := own.values .extra }
  | .init => .init (pathOf own) (own.has .force)
  | .completions =>
    .completions (((own.value? .shell).bind (CompletionShell.words.lookup ·)).getD .bash)
      ((own.value? .outDir).map (⟨·⟩)) (own.has .toOutput)

/-- The invocation of a command with the arguments in front of it and behind it. What is given
    behind it wins. -/
def invocationOf (verb : Verb) (top own : Reading) : Invocation :=
  let common (key : Key) : Option String := (own.value? key).or (top.value? key)
  { request := requestOf verb own
    flags :=
      { tags := common .tags
        goos := common .goos
        goarch := common .goarch
        cgo := (common .cgo).map (· = "true")
        overlay := common .overlay }
    colourless := own.has .colourless || top.has .colourless
    quiet := own.has .quiet || top.has .quiet }

/-- What the words of a command line ask for. -/
def read (words : List String) : Except UsageNotice Invocation :=
  match readLevel topLevel .start words with
  | .error notice => .error notice
  | .ok (top, none) =>
    match top.settle with
    | .error notice => .error notice
    | .ok top => .error (if top.given = [] then .nothingAsked else .missingVerb)
  | .ok (top, some (verb, rest)) =>
    match readVerb verb rest with
    | .error notice => .error notice
    | .ok own => top.settle.map fun top => invocationOf verb top own

end TestScout.CommandLine
