import Bindery.Text.Utf8

/-!
# Programs

A program is a function here: it is given arguments, variables and an input, and it answers with
two outputs and a status. A program that never comes to an end has no answer.
-/

namespace Bindery

/-- How a program ended. -/
inductive ExitStatus where
  | code (n : Nat)
  | signal (n : Nat)
  deriving DecidableEq, Repr

namespace ExitStatus

def isSuccess (s : ExitStatus) : Bool := s == .code 0

/-- The names of signals. -/
def signalNames : List (Nat × String) :=
  [ (1, "SIGHUP"), (2, "SIGINT"), (3, "SIGQUIT"), (4, "SIGILL"), (5, "SIGTRAP"), (6, "SIGABRT"),
    (7, "SIGBUS"), (8, "SIGFPE"), (9, "SIGKILL"), (10, "SIGUSR1"), (11, "SIGSEGV"),
    (12, "SIGUSR2"), (13, "SIGPIPE"), (14, "SIGALRM"), (15, "SIGTERM"), (24, "SIGXCPU") ]

/-- How a status is told to the user. -/
def message : ExitStatus → String
  | .code n => "exit status: " ++ toString n
  | .signal n =>
    "signal: " ++ toString n
      ++ ((signalNames.lookup n).map fun name => " (" ++ name ++ ")").getD ""

end ExitStatus

/-- What a program is started with. -/
structure ProgramCall where
  args : List String := []
  vars : List (String × String) := []
  input : List UInt8 := []

/-- What a program left behind. -/
structure ProgramResult where
  output : List UInt8 := []
  errors : List UInt8 := []
  status : ExitStatus := .code 0
  deriving DecidableEq, Repr

/-- A program; one that never ends has no result. -/
abbrev Program := ProgramCall → Option ProgramResult

/-- The programs that can be started, by name. -/
abbrev Toolbox := String → Option Program

/-- The bytes of a text. -/
def bytesOf (text : String) : List UInt8 := text.toUTF8.toList

end Bindery
