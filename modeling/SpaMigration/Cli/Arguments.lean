import SpaMigration.Options
import SpaMigration.Text.Basic

/-!
# Arguments of the command line

A command is followed by options. An option is written with two hyphens and its name, or with one hyphen
and its letter; letters may share one hyphen. A value follows its option, as the next argument or behind an
equals sign, or directly behind the letter.
-/
namespace SpaMigration.Cli

/-- An option that a command knows. -/
structure OptionSpec where
  name : String
  letter : Option Char := none
  takesValue : Bool := false
  deriving DecidableEq, Repr

/-- Options as they were given, each with its value. -/
abbrev Given := List (String × Option String)

namespace Given

/-- The value of an option. -/
def value? (given : Given) (name : String) : Option String := (given.find? (·.1 == name)).bind (·.2)

/-- The option was given. -/
def has (given : Given) (name : String) : Bool := given.any (·.1 == name)

/-- No option was given twice. -/
def isSingle : Given → Bool
  | [] => true
  | option :: rest => !has rest option.1 && isSingle rest

end Given

/-- What reading one argument came to. -/
inductive Step where
  /-- Options, and the arguments behind them. -/
  | options (found : Given) (rest : List String)
  /-- An argument that is no option. -/
  | plain (argument : String) (rest : List String)
  /-- Only plain arguments follow. -/
  | separator (rest : List String)
  | invalid

/-- A value that follows its option as an argument of its own; it does not look like an option. -/
def nextValue? : List String → Option (String × List String)
  | [] => none
  | argument :: rest =>
    match argument.toList with
    | '-' :: _ :: _ => none
    | _ => some (argument, rest)

/-- The options of letters that share a hyphen. -/
def readLetters (specs : List OptionSpec) : List Char → List String → Option (Given × List String)
  | [], rest => some ([], rest)
  | c :: more, rest => do
    let spec ← specs.find? (·.letter == some c)
    if spec.takesValue then
      match more with
      | [] =>
        let (value, rest) ← nextValue? rest
        return ([(spec.name, some value)], rest)
      | '=' :: value => return ([(spec.name, some (String.ofList value))], rest)
      | value => return ([(spec.name, some (String.ofList value))], rest)
    else
      let (others, rest) ← readLetters specs more rest
      return ((spec.name, none) :: others, rest)

/-- The option with a long name, `text` being what follows the hyphens. -/
def readLong (specs : List OptionSpec) (text : List Char) (rest : List String) :
    Option (Given × List String) := do
  let name := text.takeWhile (· != '=')
  let spec ← specs.find? (·.name.toList == name)
  match text.drop name.length, spec.takesValue with
  | [], false => return ([(spec.name, none)], rest)
  | [], true =>
    let (value, rest) ← nextValue? rest
    return ([(spec.name, some value)], rest)
  | _ :: value, true => return ([(spec.name, some (String.ofList value))], rest)
  | _ :: _, false => none

/-- Reads one argument and the value that belongs to it. -/
def readArgument (specs : List OptionSpec) (argument : String) (rest : List String) : Step :=
  let found := match argument.toList with
    | '-' :: '-' :: [] => none
    | '-' :: '-' :: text => some (readLong specs text rest)
    | '-' :: c :: more => some (readLetters specs (c :: more) rest)
    | _ => none
  match found with
  | some (some (options, rest)) => .options options rest
  | some none => .invalid
  | none => if argument == "--" then .separator rest else .plain argument rest

/-- The options in front of the first plain argument, that argument, and what follows it. An option that
ends the reading, such as the one for the version, hides what follows. -/
def readOptions (specs : List OptionSpec) (ending : List String) :
    Nat → List String → Option (Given × Option (String × List String))
  | 0, _ | _ + 1, [] => some ([], none)
  | fuel + 1, argument :: rest =>
    match readArgument specs argument rest with
    | .options found rest =>
      if found.any fun option => ending.contains option.1 then some (found, none)
      else (readOptions specs ending fuel rest).map fun (others, plain) => (found ++ others, plain)
    | .plain argument rest => some ([], some (argument, rest))
    | .separator rest => if rest.isEmpty then some ([], none) else none
    | .invalid => none

/-- What the command that converts a project is told. -/
structure ConvertArguments where
  input : String
  output : String
  config : Option String
  target : Option TargetStack
  javascript : Bool
  noRouter : Bool
  noDeps : Bool
  noComponents : Bool
  noDeploy : Bool
  stripComments : Bool
  batchSize : Option Nat
  report : Bool
  zip : Bool
  deriving DecidableEq, Repr

/-- What is to be done. -/
inductive Command where
  | convert (arguments : ConvertArguments)
  | analyze (input : String)
  | routes (input : String)
  | version
  | help
  deriving DecidableEq, Repr

/-- Options of every command. -/
def commonOptions : List OptionSpec := [⟨"verbose", some 'v', false⟩, ⟨"help", some 'h', false⟩]

/-- Options in front of the command. -/
def topOptions : List OptionSpec := ⟨"version", some 'V', false⟩ :: commonOptions

/-- The option that names the project. -/
def inputOption : OptionSpec := ⟨"input", some 'i', true⟩

/-- Options of the command that converts a project. -/
def convertOptions : List OptionSpec :=
  [inputOption, ⟨"output", some 'o', true⟩, ⟨"config", some 'c', true⟩, ⟨"target", none, true⟩,
   ⟨"javascript", none, false⟩, ⟨"no-router", none, false⟩, ⟨"no-deps", none, false⟩,
   ⟨"no-components", none, false⟩, ⟨"no-deploy", none, false⟩, ⟨"strip-comments", none, false⟩,
   ⟨"batch-size", none, true⟩, ⟨"report", some 'r', false⟩, ⟨"zip", none, false⟩] ++ commonOptions

/-- A path that was given, which is not empty. -/
def path? (given : Given) (name : String) : Option String :=
  (given.value? name).filter fun value => !value.isEmpty

/-- A value that is optional but has to be valid when it is given. -/
def validated {α : Type} (given : Given) (name : String) (read : String → Option α) : Option (Option α) :=
  match given.value? name with
  | some value => (read value).map some
  | none => some none

/-- A count that fits in 64 bits. -/
def count? (text : String) : Option Nat :=
  let digits := match text.toList with
    | '+' :: digits => digits
    | digits => digits
  if digits.isEmpty || !digits.all Char.isDigit then none
  else
    let n := digits.foldl (fun n d => n * 10 + (d.toNat - '0'.toNat)) 0
    if n < UInt64.size then some n else none

/-- The command that converts a project, from its options. -/
def convertCommand? (given : Given) : Option Command := do
  return .convert
    { input := ← path? given "input"
      output := ← path? given "output"
      config := ← validated given "config" fun value => if value.isEmpty then none else some value
      target := ← validated given "target" TargetStack.ofName?
      javascript := given.has "javascript"
      noRouter := given.has "no-router"
      noDeps := given.has "no-deps"
      noComponents := given.has "no-components"
      noDeploy := given.has "no-deploy"
      stripComments := given.has "strip-comments"
      batchSize := ← validated given "batch-size" count?
      report := given.has "report"
      zip := given.has "zip" }

/-- The options of a command, none given twice and nothing else given. -/
def commandOptions? (specs : List OptionSpec) (arguments : List String) : Option Given :=
  match readOptions specs ["help"] (arguments.length + 1) arguments with
  | some (given, none) => if given.isSingle then some given else none
  | _ => none

/-- A command from its options, unless help is asked for. -/
def finishCommand? (given : Given) (command? : Given → Option Command) : Option Command :=
  if given.has "help" then some .help else command? given

/-- The command with a name and its arguments. -/
def readCommand? (name : String) (arguments : List String) : Option Command :=
  let inputOnly := inputOption :: commonOptions
  match name with
  | "convert" => (commandOptions? convertOptions arguments).bind (finishCommand? · convertCommand?)
  | "analyze" =>
    (commandOptions? inputOnly arguments).bind
      (finishCommand? · fun given => (path? given "input").map .analyze)
  | "routes" =>
    (commandOptions? inputOnly arguments).bind
      (finishCommand? · fun given => (path? given "input").map .routes)
  | "help" => some .help
  | _ => none

/-- The command that the arguments ask for; `none` when they cannot be understood. -/
def parse? (arguments : List String) : Option Command :=
  match readOptions topOptions ["version", "help"] (arguments.length + 1) arguments with
  | some (given, plain) =>
    if !given.isSingle then none
    else if given.has "version" then some .version
    else if given.has "help" then some .help
    else plain.bind fun (name, arguments) => readCommand? name arguments
  | none => none

end SpaMigration.Cli
