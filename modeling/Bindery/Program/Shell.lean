import Bindery.Program.Filter
import Bindery.Program.Script

/-!
# The shell

Runs scripts. Commands that the shell does not know itself are filters; others are not found.
-/

namespace Bindery.Shell

open Script

/-- The state of a running script. -/
structure State where
  vars : List (String × String)
  /-- The name and the arguments of the script. -/
  args : List String
  input : List UInt8
  output : List UInt8 := []
  errors : List UInt8 := []
  status : Nat := 0
  /-- Set when the script has come to its end. -/
  ended : Option ExitStatus := none

/-- The number by which a script knows itself. -/
def ownNumber : String := "1000"

/-- The value of a variable. -/
def State.value (s : State) (name : String) : String :=
  match name with
  | "$" => ownNumber
  | "?" => toString s.status
  | "#" => toString (s.args.length - 1)
  | "@" => String.intercalate " " (s.args.drop 1)
  | "*" => String.intercalate " " (s.args.drop 1)
  | _ =>
    match name.toNat? with
    | some i => s.args.getD i ""
    | none => (s.vars.lookup name).getD ""

/-- The value of a variable, or another text where it has none. -/
def State.valueOr (s : State) (name fallback : String) : String :=
  let value := s.value name
  if value = "" then fallback else value

/-- Fields with the one that is being written. -/
abbrev Fields := List String × Option String

/-- Continues the field that is being written. -/
def continueField (f : Fields) (text : String) : Fields := (f.1, some (f.2.getD "" ++ text))

/-- Ends the field that is being written. -/
def closeField (f : Fields) : Fields := (f.1 ++ f.2.toList, none)

/-- Adds a value that is cut up at its blanks. -/
def addSplit (f : Fields) (value : String) : Fields :=
  value.toList.foldl (fun f c =>
    if c = ' ' || c = '\t' || c = '\n' then closeField f
    else continueField f (String.singleton c)) f

/-- The fields that a word stands for. -/
def expand (s : State) (w : Word) : List String :=
  (closeField (w.foldl (fun f p =>
    match p with
    | .plain text => continueField f text
    | .quoted text => continueField f text
    | .variable_ name fallback true => continueField f (s.valueOr name fallback)
    | .variable_ name fallback false => addSplit f (s.valueOr name fallback)) ([], none))).1

/-- The single text that a word stands for. -/
def expandOne (s : State) (w : Word) : String := String.intercalate " " (expand s w)

/-- The targets of both outputs. -/
structure Targets where
  output : Target := .output
  errors : Target := .errors

/-- The target that a file name means. -/
def fileTarget (t : Targets) : String → Target
  | "/dev/stderr" => t.errors
  | "/dev/stdout" => t.output
  | _ => .nowhere

/-- What a redirection changes. -/
def redirect (s : State) (t : Targets) : Redirection → Targets
  | .send false w => { t with output := fileTarget t (expandOne s w) }
  | .send true w => { t with errors := fileTarget t (expandOne s w) }
  | .copy false to_ => { t with output := if to_ = .errors then t.errors else t.output }
  | .copy true to_ => { t with errors := if to_ = .output then t.output else t.errors }
  | .noInput => t

/-- Sends bytes to a target. -/
def State.send (s : State) (to_ : Target) (bytes : List UInt8) : State :=
  match to_ with
  | .output => { s with output := s.output ++ bytes }
  | .errors => { s with errors := s.errors ++ bytes }
  | .nowhere => s

/-- The number of a signal. -/
def signalNumber? (text : String) : Option Nat :=
  match text.toNat? with
  | some n => some n
  | none =>
    (ExitStatus.signalNames.find? fun p => p.2 = text || p.2 = "SIG" ++ text).map (·.1)

/-- The signal that is asked for, and whom it is for. -/
def killArgs? : List String → Option (Nat × List String)
  | "-s" :: name :: r => (signalNumber? name).map (·, r)
  | a :: r =>
    match a.toList with
    | '-' :: name => (signalNumber? (String.ofList name)).map (·, r)
    | _ => some (15, a :: r)
  | [] => none

/-- Sets variables. -/
def State.assign (s : State) (settings : List (String × Word)) : State :=
  settings.foldl (fun s (name, w) =>
    { s with vars := (name, expandOne s w) :: s.vars }) s

/-- Runs a tool and sends what it writes to its targets. -/
def runTool (s : State) (t : Targets) (input : List UInt8) (name : String) (args : List String) :
    State :=
  match Filter.named? name with
  | some tool =>
    let done := tool { args, input }
    let s := (s.send t.output done.output).send t.errors done.errors
    let reads := name = "tr" || (name = "cat" && (args.isEmpty || args.contains "-"))
    { s with
      input := if reads then [] else s.input
      status := match done.status with
        | .code n => n
        | .signal n => 128 + n }
  | none =>
    { s.send t.errors (bytesOf ("sh: 1: " ++ name ++ ": not found\n")) with status := 127 }

/-- Ends a script with the status of its last command. -/
def State.finish (s : State) : State := { s with ended := s.ended.or (some (.code s.status)) }

/-- Runs a simple command. -/
def runSimple (s : State) (settings : List (String × Word)) (words : List Word)
    (redirections : List Redirection) : State :=
  let t := redirections.foldl (redirect s) {}
  let input := if redirections.contains .noInput then [] else s.input
  let leave (r : List String) : State :=
    { s with ended := some (.code (((r.head?.bind String.toNat?).getD s.status) % 256)) }
  match words.flatMap (expand s) with
  | [] => { s.assign settings with status := 0 }
  | "exit" :: r => leave r
  | "return" :: r => leave r
  | "exec" :: name :: args => (runTool s t input name args).finish
  | "kill" :: r =>
    match killArgs? r with
    | some (0, _) => { s with status := 0 }
    | some (n, targets) =>
      if targets.contains ownNumber then { s with ended := some (.signal n) }
      else { s with status := 1 }
    | none => { s with status := 2 }
  | name :: args => runTool s t input name args

/-- Runs a command unless the script has ended. -/
def run (s : State) : Command → State
  | .nothing => s
  | .simple settings words redirections =>
    if s.ended.isSome then s else runSimple s settings words redirections
  | .sequence a b => run (run s a) b
  | .both a b =>
    let s := run s a
    if s.status = 0 then run s b else s
  | .either a b =>
    let s := run s a
    if s.status = 0 then s else run s b
  | .negated a =>
    let s := run s a
    { s with status := if s.status = 0 then 1 else 0 }
  | .branch c yes no =>
    let s := run s c
    if s.status = 0 then run s yes else run { s with status := 0 } no
  | .pipe a b =>
    if s.ended.isSome then s
    else
      let first := run { s with output := [] } a
      let second := run { s with input := first.output, errors := first.errors } b
      { second with
        input := []
        vars := s.vars
        status := match second.ended with
          | some (.code n) => n
          | some (.signal n) => 128 + n
          | none => second.status
        ended := none }

/-- The result of a script. -/
def result (s : State) : ProgramResult :=
  { output := s.output, errors := s.errors, status := s.ended.getD (.code s.status) }

/-- Runs a script. -/
def runScript (vars : List (String × String)) (args : List String) (input : List UInt8)
    (text : String) : ProgramResult :=
  match Script.parse? text with
  | some c => result (run { vars, args := if args.isEmpty then ["sh"] else args, input } c)
  | none => Filter.complain "sh: 1: Syntax error" 2

/-- Runs the script that the arguments hold, or the one that is read from the input. -/
def program : Program := fun call =>
  match call.args with
  | [] => some (runScript call.vars [] [] (Text.Utf8.decodeLossy ⟨call.input.toArray⟩))
  | ["-c"] => some (Filter.complain "sh: 0: -c requires an argument" 2)
  | "-c" :: text :: r => some (runScript call.vars r call.input text)
  | path :: _ => some (Filter.complain ("sh: 0: cannot open " ++ path ++ ": No such file") 2)

/-- The programs that are there: the shell and the filters. -/
def toolbox : Toolbox := fun name =>
  if name = "sh" then some program
  else (Filter.named? name).map fun tool => fun call => some (tool call)

end Bindery.Shell
