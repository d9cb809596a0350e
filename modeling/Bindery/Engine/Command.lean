import Bindery.Engine.Builtin
import Bindery.Profile.Basic
import Bindery.Program.Basic
import Bindery.Json.Printer
import Bindery.Text.Blank

/-!
# Programs as engines

A profile can name programs that are used as engines. A program reads the code of the module and
writes the new code; what else it has to know it finds in three variables.
-/

namespace Bindery.Engine

/-- The variables that tell a program about its module. -/
def variablesFor (i : EngineInput) : List (String × String) :=
  [ ("SHEAF_MODULE", i.module.text), ("SHEAF_MODE", i.mode.name),
    ("SHEAF_OPTIONS", i.options.sortKeys.compact) ]

/-- The reply that the result of a program stands for. A program that fails explains itself by
what it wrote besides the code, if that is more than blanks. -/
def replyOf (command : String) (kind : ContentKind) (r : ProgramResult) : EngineReply :=
  if r.status.isSuccess then
    match Text.Utf8.decode? ⟨r.output.toArray⟩ with
    | some code => .done { code, kind }
    | none => .failed .invalidUtf8
  else
    match Text.trim (Text.Utf8.decodeLossy ⟨r.errors.toArray⟩) with
    | "" => .failed (.failed ("'" ++ command ++ "' exited with " ++ r.status.message))
    | text => .failed (.failed text)

/-- Text that cannot be handed to a program. -/
def isUnfit (text : String) : Bool := text.toList.contains '\x00'

/-- The engine that runs a program. -/
def ofCommand (tools : Toolbox) (name : String) (c : EngineCommand) : Engine :=
  { name
    timeoutMs := c.timeoutMs
    apply := fun i =>
      let vars := variablesFor i
      if isUnfit c.command || c.args.any isUnfit || vars.any (fun v => isUnfit v.2) then
        .failed (.spawn c.command "nul byte found in provided data")
      else
        match tools c.command with
        | none => .failed (.spawn c.command "No such file or directory (os error 2)")
        | some program =>
          match program { args := c.args, vars, input := bytesOf i.code } with
          | none => .hangs
          | some r => replyOf c.command i.kind r }

end Engine

namespace EngineRegistry

/-- The built-in engines and those of a profile, which may take the place of built-in ones. -/
def ofProfile (tools : Toolbox) (p : Profile) : EngineRegistry :=
  p.engines.foldl (fun r e => r.register (Engine.ofCommand tools e.1 e.2)) Engine.builtins

end EngineRegistry

end Bindery
