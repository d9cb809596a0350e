import Bindery.Bundle.Error
import Bindery.Text.Lines

/-!
# The page of a failed build

While the last build of a session is a failed one, a page that lists its errors is shown in place
of the built one. Every text from outside is escaped, so nothing of it can pass for a part of the
page.
-/

namespace Bindery

namespace Html

/-- The written form of one character, inside of elements as well as inside of attributes. -/
def escapeChar (c : Char) : List Char :=
  if c = '&' then "&amp;".toList
  else if c = '<' then "&lt;".toList
  else if c = '>' then "&gt;".toList
  else if c = '"' then "&quot;".toList
  else if c = '\'' then "&#x27;".toList
  else [c]

/-- The written form of a text. -/
def escape (text : String) : String := String.ofList (text.toList.flatMap escapeChar)

end Html

/-- What is told about a failed build. -/
structure ErrorPage where
  /-- The messages of the single errors, in order. -/
  messages : List String
  /-- The modules that the errors concern, in order, each once. -/
  modules : List ModuleId
  deriving DecidableEq, Repr

namespace ErrorPage

/-- The page for an error. -/
def ofError (e : BuildError) : ErrorPage :=
  { messages := e.leaves.map BuildError.message
    modules := (e.leaves.filterMap BuildError.module?).eraseDups }

/-- The part of the page before the modules. -/
def headLines : List String :=
  [ "<!DOCTYPE html>",
    "<html lang=\"en\">",
    "  <head>",
    "    <meta charset=\"utf-8\">",
    "    <title>Build failed</title>",
    "    <style>",
    "      body \x7b margin: 0; padding: 2rem; background: #1e1e1e; color: #f0f0f0; font-family: ui-monospace, monospace; \x7d",
    "      h1 \x7b color: #ff6b6b; font-size: 1.25rem; \x7d",
    "      pre \x7b white-space: pre-wrap; background: #2a2a2a; padding: 1rem; border-left: 3px solid #ff6b6b; \x7d",
    "      ul \x7b list-style: none; padding: 0; \x7d",
    "    </style>",
    "  </head>",
    "  <body>",
    "    <h1>Build failed</h1>" ]

/-- The part of the page behind the messages. -/
def tailLines : List String :=
  [ "    </ul>",
    "    <p>Fix the errors and save; the page reloads after the next successful build.</p>",
    "  </body>",
    "</html>" ]

/-- The line that names the modules. -/
def moduleLine (modules : List ModuleId) : String :=
  "    <p>Failing modules: "
    ++ String.intercalate ", " (modules.map fun m => "<code>" ++ Html.escape m.text ++ "</code>")
    ++ "</p>"

/-- The list item of a message. -/
def item (message : String) : String := "      <li><pre>" ++ Html.escape message ++ "</pre></li>"

/-- The text of the page. -/
def text (p : ErrorPage) : String :=
  Text.unlines (headLines ++ [moduleLine p.modules, "    <ul>"] ++ p.messages.map item ++ tailLines)

end ErrorPage

end Bindery
