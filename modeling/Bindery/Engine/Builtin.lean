import Bindery.Engine.Basic
import Bindery.Json.Quoted
import Bindery.Text.Blank
import Bindery.Text.Lines

/-!
# Built-in engines

They do what the later stages rely on; anything that understands a language is an external program.
-/

namespace Bindery.Engine

/-- Declares code to be a script. -/
def script : Engine :=
  { name := "script", apply := fun i => .done { code := i.code, kind := .script } }

/-- The text with one kind of line end and without blanks at the ends of lines. -/
def tidy (code : String) : String :=
  let ls := (Text.lines code.toList).map Text.trimEnd
  String.ofList (['\n'].intercalate ls) ++ "\n"

/-- Tidies a style sheet. -/
def css : Engine :=
  { name := "css", apply := fun i => .done { code := tidy i.code, kind := .style } }

/-- The name of a kind as it is told to the user. -/
def kindLabel : ContentKind → String
  | .script => "Script"
  | .style => "Style"

/-- Lets a style sheet stay one, so that it becomes part of a style file. -/
def cssExtract : Engine :=
  { name := "css-extract"
    apply := fun i =>
      match i.kind with
      | .style => .done { code := i.code, kind := .style }
      | k => .failed (.failed ("expected a style sheet, got " ++ kindLabel k ++ " output")) }

/-- The body of a script that adds a style sheet to the page. -/
def injectStyle (module : ModuleId) (css : String) : String :=
  "var style = document.createElement(\"style\");\n"
    ++ "style.setAttribute(\"data-sheaf-module\", " ++ Json.quote module.text ++ ");\n"
    ++ "style.textContent = " ++ Json.quote css ++ ";\n"
    ++ "document.head.appendChild(style);\n"
    ++ "module.exports = \x7b\x7d;\n"

/-- Turns a style sheet into a script that adds it to the page. -/
def styleInject : Engine :=
  { name := "style-inject"
    apply := fun i => .done { code := injectStyle i.module i.code, kind := .script } }

/-- The engine that profiles name for making scripts smaller when they name no other. It keeps the
code as it is: what a script means is left to external programs. -/
def minify : Engine :=
  { name := "minify", apply := fun i => .done { code := i.code, kind := i.kind } }

/-- All built-in engines. -/
def builtins : EngineRegistry := [script, css, cssExtract, styleInject, minify]

end Bindery.Engine
