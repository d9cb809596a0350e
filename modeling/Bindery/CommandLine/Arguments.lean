import Bindery.Path
import Bindery.Profile.Mode
import Bindery.Text.Replace

/-!
# Arguments

The arguments are read level by level: first those of the program up to the name of a command, then
those of the command. At each level an option may be given once. Some options are known at every
level; what is said about them further right counts. What keeps the arguments from being understood
is reported in the order in which it is met, but what a level lacks only when it has been read to
its end.
-/

namespace Bindery

/-- What a command line asks for besides running a command, or what is wrong with it. -/
inductive UsageError where
  | helpWanted
  | versionWanted
  /-- Nothing was given at all. -/
  | nothingGiven
  | missingCommand
  | unknownCommand
  | unknownArgument
  /-- A value is missing, or is none of those that can be. -/
  | invalidValue
  /-- A value is attached to an option that takes none. -/
  | unwantedValue
  /-- Options that cannot stand together, or an option that is given twice. -/
  | conflict
  deriving DecidableEq, Repr

/-- The exit status that goes with it. -/
def UsageError.exitCode : UsageError → Nat
  | .helpWanted => 0
  | .versionWanted => 0
  | _ => 2

/-- What to do. -/
inductive Subcommand where
  | build (mode : Mode) (json : Bool)
  | dev (noHot json : Bool)
  deriving DecidableEq, Repr

/-- A command line that was understood. -/
structure Invocation where
  verbose : Bool
  quiet : Bool
  noColor : Bool
  config : Option String
  directory : Option String
  command : Subcommand
  deriving DecidableEq, Repr

namespace Arguments

/-- The options. -/
inductive Switch where
  | verbose
  | quiet
  | noColor
  | config
  | directory
  | help
  | version
  | mode
  | json
  | noHot
  deriving DecidableEq, Repr

/-- Where an option is given: before the name of a command, or behind it. -/
inductive Level where
  | program
  | build
  | dev
  deriving DecidableEq, Repr

def Switch.long : Switch → String
  | .verbose => "verbose"
  | .quiet => "quiet"
  | .noColor => "no-color"
  | .config => "config"
  | .directory => "cwd"
  | .help => "help"
  | .version => "version"
  | .mode => "mode"
  | .json => "json"
  | .noHot => "no-hot"

def Switch.short? : Switch → Option Char
  | .verbose => some 'v'
  | .quiet => some 'q'
  | .config => some 'c'
  | .help => some 'h'
  | .version => some 'V'
  | .mode => some 'm'
  | _ => none

def Switch.takesValue : Switch → Bool
  | .config => true
  | .directory => true
  | .mode => true
  | _ => false

/-- Whether a text can be the value of an option. -/
def Switch.accepts : Switch → String → Bool
  | .mode, value => (modeOf? value).isSome
  | _, value => value != ""
where
  modeOf? (value : String) : Option Mode := (modeNames.find? (·.1 = value)).map (·.2)
  modeNames : List (String × Mode) :=
    [("development", .development), ("dev", .development), ("production", .production),
      ("prod", .production)]

/-- The options that are known at every level. -/
def everywhere : List Switch := [.verbose, .quiet, .noColor, .config, .directory, .help]

/-- The options of a level. -/
def Level.switches : Level → List Switch
  | .program => everywhere ++ [.version]
  | .build => everywhere ++ [.mode, .json]
  | .dev => everywhere ++ [.noHot, .json]

def Level.long? (l : Level) (name : String) : Option Switch :=
  l.switches.find? (·.long = name)

def Level.short? (l : Level) (name : Char) : Option Switch :=
  l.switches.find? (·.short? = some name)

/-- The level that a command leads to. -/
def commandLevel? : String → Option Level
  | "build" => some .build
  | "dev" => some .dev
  | _ => none

/-- The words that stand for something at the level of the program. -/
def isCommandWord (word : String) : Bool := word = "help" || (commandLevel? word).isSome

/-- How far a level has been read. -/
structure Reading where
  /-- The options that were taken in, with their values; options without one have none. -/
  taken : List (Switch × Option String) := []
  /-- The last option, when its value stands in an argument of its own and is not taken in yet. -/
  open? : Option (Switch × Option String) := none

namespace Reading

/-- Whether the next word is the value of the last option. -/
def wantsValue (r : Reading) : Bool :=
  match r.open? with
  | some (_, none) => true
  | _ => false

/-- Takes an option in. -/
def take (r : Reading) (s : Switch) (value : Option String) : Except UsageError Reading :=
  if s.takesValue && value.isNone then .error .invalidValue
  else if s = .help then .error .helpWanted
  else if s = .version then .error .versionWanted
  else if r.taken.any (·.1 = s) then .error .conflict
  else if (value.map s.accepts).getD true then .ok { r with taken := r.taken ++ [(s, value)] }
  else .error .invalidValue

/-- Takes in the option that is still open. -/
def settle (r : Reading) : Except UsageError Reading :=
  match r.open? with
  | none => .ok r
  | some (s, value) => ({ r with open? := none }).take s value

/-- An option that is followed by its value in the next argument. -/
def await (r : Reading) (s : Switch) : Except UsageError Reading := do
  let settled ← r.settle
  return { settled with open? := some (s, none) }

/-- Settles, and then takes an option in. -/
def add (r : Reading) (s : Switch) (value : Option String) : Except UsageError Reading := do
  (← r.settle).take s value

/-- The argument that names an option in full, perhaps with a value behind an equals sign. -/
def addLong (r : Reading) (l : Level) (name : String) (value : Option String) :
    Except UsageError Reading :=
  match l.long? name with
  | none => .error .unknownArgument
  | some s =>
    if s.takesValue then
      match value with
      | none => r.await s
      | some v => r.add s (some v)
    else if value.isSome then .error .unwantedValue
    else r.add s none

/-- An argument of short names. The value of an option may follow its name, also behind an equals
sign. -/
def addShort (r : Reading) (l : Level) : List Char → Except UsageError Reading
  | [] => .ok r
  | c :: rest =>
    match l.short? c with
    | none => .error .unknownArgument
    | some s =>
      if s.takesValue then
        match rest with
        | [] => r.await s
        | '=' :: value => r.add s (some (String.ofList value))
        | value => r.add s (some (String.ofList value))
      else
        match r.add s none with
        | .error e => .error e
        | .ok r => r.addShort l rest

/-- The value that was given for an option. -/
def value? (r : Reading) (s : Switch) : Option String := (r.taken.lookup s).bind id

/-- Whether an option was given. -/
def has (r : Reading) (s : Switch) : Bool := r.taken.any (·.1 = s)

/-- A level that was read to its end. -/
def finish (r : Reading) : Except UsageError Reading := r.settle

/-- Options that cannot stand together are only looked for at one level. -/
def check (r : Reading) : Except UsageError Unit :=
  if r.has .verbose && r.has .quiet then .error .conflict else .ok ()

end Reading

/-- What a word is that is neither an option nor the value of one. -/
def strayWord (l : Level) (behindDashes : Bool) (word : String) : UsageError :=
  if l = .program && !(behindDashes && isCommandWord word) then .unknownCommand
  else .unknownArgument

/-- What asking for help leads to: the words behind it name a command. -/
def helpFor : List String → UsageError
  | [] => .helpWanted
  | [word] => if isCommandWord word then .helpWanted else .unknownCommand
  | _ => .unknownCommand

/-- Reads a level. At the level of the program the name of a command ends it; then the level of the
command and its arguments are given too. -/
def readLevel (l : Level) (r : Reading) :
    List String → Except UsageError (Reading × Option (Level × List String))
  | [] => .ok (r, none)
  | word :: rest =>
    let command := if l = .program && !r.wantsValue then commandLevel? word else none
    match command with
    | some next => .ok (r, some (next, rest))
    | none =>
      if l = .program && !r.wantsValue && word = "help" then .error (helpFor rest)
      else
        match word.toList with
        | ['-', '-'] =>
          match rest with
          | [] => .ok (r, none)
          | stray :: _ => .error (strayWord l true stray)
        | '-' :: '-' :: text =>
          let name := String.ofList (text.takeWhile (· != '='))
          let value := match text.dropWhile (· != '=') with
            | [] => none
            | _ :: value => some (String.ofList value)
          match r.addLong l name value with
          | .error e => .error e
          | .ok r => readLevel l r rest
        | '-' :: c :: text =>
          match r.addShort l (c :: text) with
          | .error e => .error e
          | .ok r => readLevel l r rest
        | _ =>
          match r.open? with
          | some (s, none) => readLevel l { r with open? := some (s, some word) } rest
          | _ => .error (strayWord l false word)

/-- The mode that is named, or the one that is meant when none is. -/
def modeOf (r : Reading) : Mode :=
  ((r.value? .mode).bind Switch.accepts.modeOf?).getD .production

/-- What a command line asks for, given what was said before and behind the name of the command. -/
def invocation (outer inner : Reading) (command : Subcommand) : Invocation :=
  let has (s : Switch) := outer.has s || inner.has s
  let value? (s : Switch) := (inner.value? s).or (outer.value? s)
  { verbose := has .verbose
    quiet := has .quiet
    noColor := has .noColor
    config := value? .config
    directory := value? .directory
    command }

/-- Reads the arguments behind the name of the program. -/
def parse (args : List String) : Except UsageError Invocation := do
  let (outer, command) ← readLevel .program {} args
  match command with
  | none =>
    let outer ← outer.finish
    throw (if outer.taken.isEmpty then .nothingGiven else .missingCommand)
  | some (level, rest) =>
    let (inner, _) ← readLevel level {} rest
    let inner ← inner.finish
    inner.check
    let outer ← outer.finish
    outer.check
    let command : Subcommand :=
      if level = .dev then .dev (inner.has .noHot) (inner.has .json)
      else .build (modeOf inner) (inner.has .json)
    return invocation outer inner command

end Arguments

namespace Invocation

/-- The directory of the project, seen from where the program runs. -/
def root (i : Invocation) (current : String) : String :=
  match i.directory with
  | some directory => Path.join current directory
  | none => current

/-- The path of the configuration that was asked for. -/
def configPath? (i : Invocation) (current : String) : Option String :=
  i.config.map (Path.join current)

end Invocation

end Bindery
