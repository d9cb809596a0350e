import Bindery.Module.Id
import Bindery.Json.Basic
import Bindery.Profile.Mode

/-!
# Engines

An engine takes the code of one module and gives new code. Engines are looked up by the names that
rules use. An engine is a function here: given the same input it always gives the same reply, and
one that never comes to an end says so.
-/

namespace Bindery

/-- What a piece of code is at some point of a chain. -/
inductive ContentKind where
  | script
  | style
  deriving DecidableEq, Repr

/-- What an engine is given. -/
structure EngineInput where
  module : ModuleId
  code : String
  kind : ContentKind
  /-- The options of the rule. -/
  options : Json
  mode : Mode

/-- What an engine makes. -/
structure EngineOutput where
  code : String
  kind : ContentKind
  deriving DecidableEq, Repr

/-- Why an engine made nothing. -/
inductive EngineError where
  | failed (detail : String)
  /-- The program could not be started. -/
  | spawn (command cause : String)
  | invalidUtf8
  deriving DecidableEq, Repr

def EngineError.message : EngineError → String
  | .failed detail => detail
  | .spawn command cause => "failed to run '" ++ command ++ "': " ++ cause
  | .invalidUtf8 => "engine produced invalid UTF-8"

/-- The reply of an engine. -/
inductive EngineReply where
  | done (output : EngineOutput)
  | failed (error : EngineError)
  /-- The engine never comes to an end. -/
  | hangs
  deriving DecidableEq, Repr

/-- An engine. -/
structure Engine where
  name : String
  /-- A limit of its own, in milliseconds, in place of the limit of the profile. -/
  timeoutMs : Option Nat := none
  apply : EngineInput → EngineReply

/-- Engines in the order of their registration; a name occurs once. -/
abbrev EngineRegistry := List Engine

namespace EngineRegistry

/-- Adds an engine. It takes the place of an engine of the same name. -/
def register (engine : Engine) : EngineRegistry → EngineRegistry
  | [] => [engine]
  | e :: r => if e.name = engine.name then engine :: r else e :: register engine r

def get? (registry : EngineRegistry) (name : String) : Option Engine :=
  registry.find? (·.name = name)

def has (registry : EngineRegistry) (name : String) : Bool := (get? registry name).isSome

end EngineRegistry

end Bindery
