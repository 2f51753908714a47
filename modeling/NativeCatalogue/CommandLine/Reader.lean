import NativeCatalogue.CommandLine.Basic

/-!
Reading command lines. Flags and named parameters may stand anywhere before `--`; a value belongs to
the parameter in front of it or behind an equals sign. A value is looked at when the next argument
is known to be right, so that of two mistakes an unknown argument is told before a bad value.
-/

set_option autoImplicit false

namespace NativeCatalogue.CommandLine

inductive Word where
  | separator
  | long (name : String) (value : Option String)
  | letters (letters : List Char)
  | plain
  deriving DecidableEq, Repr

def Word.ofText (s : String) : Word :=
  match s.toList with
  | ['-', '-'] => .separator
  | '-' :: '-' :: rest =>
    .long (.ofList (rest.takeWhile (· ≠ '=')))
      (match rest.dropWhile (· ≠ '=') with
        | [] => none
        | _ :: value => some (.ofList value))
  | '-' :: c :: rest => .letters (c :: rest)
  | _ => .plain

structure Given where
  /-- The flags; only `verbose` may be here more than once. -/
  flags : List Flag := []
  values : List (Parameter × String) := []
  /-- The parameter named last, and its value once that is known. -/
  pending : Option (Parameter × Option String) := none

namespace Given

def has (g : Given) (p : Parameter) : Bool :=
  (g.values.lookup p).isSome || g.pending.any (·.1 = p)

def settle (g : Given) : Except UsageError Given :=
  match g.pending with
  | none => .ok g
  | some (_, none) => .error .invalidValue
  | some (p, some text) => do
    if (g.values.lookup p).isSome then .error .conflict
    else
      p.check text
      return { g with values := g.values ++ [(p, text)], pending := none }

def name (g : Given) (p : Parameter) (value : Option String) : Except UsageError Given := do
  return { ← g.settle with pending := some (p, value) }

def give (g : Given) (p : Parameter) (value : String) : Except UsageError Given := do
  (← g.name p (some value)).settle

def raise (g : Given) (f : Flag) : Except UsageError Given := do
  let g ← g.settle
  match f with
  | .help => .error .helpRequested
  | .version => .error .versionRequested
  | .verbose => return { g with flags := g.flags ++ [f] }
  | _ => if g.flags.contains f then .error .conflict else return { g with flags := g.flags ++ [f] }

def value? (g : Given) (p : Parameter) : Option String :=
  g.values.lookup p

end Given

def raiseLetter (command : Option CommandName) (g : Given) (c : Char) : Except UsageError Given :=
  match (Flag.allowed command).find? fun f => f.letter? = some c with
  | some f => g.raise f
  | none => .error .unknownArgument

def raiseLong (f : Flag) (g : Given) (value : Option String) : Except UsageError Given :=
  match value with
  | none => g.raise f
  | some _ => .error .unneededValue

def readLong (command : CommandName) (g : Given) (name : String) (value : Option String) :
    Except UsageError Given :=
  match (Flag.allowed (some command)).find? fun f => f.longName = name with
  | some f => raiseLong f g value
  | none =>
    match (Parameter.allowed command).find? fun p => p.longName? = some name with
    | none => .error .unknownArgument
    | some p =>
      match value with
      | none => g.name p none
      | some text => g.give p text

def readPlain (command : CommandName) (g : Given) (text : String) : Except UsageError Given :=
  match Parameter.required? command with
  | none => .error .unknownArgument
  | some p => if g.has p then .error .unknownArgument else g.name p (some text)

def readArguments (command : CommandName) : Bool → Given → List String → Except UsageError Given
  | _, g, [] => g.settle
  | true, g, text :: rest => do readArguments command true (← readPlain command g text) rest
  | false, g, text :: rest =>
    match Word.ofText text with
    | .separator => readArguments command true g rest
    | .long name value => do readArguments command false (← readLong command g name value) rest
    | .letters letters => do
      readArguments command false (← letters.foldlM (raiseLetter (some command)) g) rest
    | .plain =>
      match g.pending with
      | some (p, none) => readArguments command false { g with pending := some (p, some text) } rest
      | _ => do readArguments command false (← readPlain command g text) rest

structure Opening where
  flags : Given := {}
  command : Option (CommandName × List String) := none

def isCommand (text : String) : Bool :=
  text = "help" || (CommandName.ofText? text).isSome

def readHelp : List String → UsageError
  | [] => .helpRequested
  | [name] => if isCommand name then .helpRequested else .invalidCommand
  | _ => .invalidCommand

def readOpening (g : Given) : List String → Except UsageError Opening
  | [] => .ok { flags := g }
  | text :: rest =>
    match Word.ofText text with
    | .separator =>
      match rest with
      | [] => .ok { flags := g }
      | next :: _ => .error (if isCommand next then .unknownArgument else .invalidCommand)
    | .long name value =>
      match (Flag.allowed none).find? fun f => f.longName = name with
      | none => .error .unknownArgument
      | some f => do readOpening (← raiseLong f g value) rest
    | .letters letters => do readOpening (← letters.foldlM (raiseLetter none) g) rest
    | .plain =>
      if text = "help" then .error (readHelp rest)
      else
        match CommandName.ofText? text with
        | some command => .ok { flags := g, command := some (command, rest) }
        | none => .error .invalidCommand

def checkLevel (g : Given) : Except UsageError Unit :=
  if g.flags.contains .verbose && g.flags.contains .quiet then .error .conflict else .ok ()

def required (g : Given) (p : Parameter) : Except UsageError Path :=
  match g.value? p with
  | some text => Parameter.readPath text
  | none => .error .missingArgument

def commandOf (command : CommandName) (g : Given) : Except UsageError Command := do
  match command with
  | .compile =>
    return .compile {
      directory := ← required g .directory
      out := ← Parameter.readPath ((g.value? .catalogueFile).getD "natives.json")
      keepGoing := g.flags.contains .keepGoing
      pretty := g.flags.contains .pretty }
  | .verify => return .verify (← required g .document)
  | .compat =>
    return .compat {
      directory := ← required g .directory
      input := g.value? .input
      output := g.value? .output
      force := g.flags.contains .force
      version := ← Parameter.readVersion ((g.value? .version).getD "2.0")
      start := ← Parameter.readDate ((g.value? .start).getD "2023-01-01")
      ignoreMissing := g.flags.contains .ignoreMissing }
  | .sitemap => return .sitemap (← required g .directory) (g.value? .base)
  | .schema => return .schema

def verboseLimit : Nat := 255

def verboseOf (before behind : Given) : Nat :=
  let count := behind.flags.count .verbose
  min verboseLimit (if count = 0 then before.flags.count .verbose else count)

def read (arguments : List String) : Except UsageError CommandLine := do
  let opening ← readOpening {} arguments
  match opening.command with
  | none => .error (if opening.flags.flags = [] then .nothingGiven else .missingCommand)
  | some (name, rest) =>
    let given ← readArguments name false {} rest
    checkLevel given
    let command ← commandOf name given
    checkLevel opening.flags
    return {
      verbose := verboseOf opening.flags given
      quiet := given.flags.contains .quiet || opening.flags.flags.contains .quiet
      command }

end NativeCatalogue.CommandLine
