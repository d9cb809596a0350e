import Bindery.Json.Printer
import Bindery.Module.Id
import Bindery.Text.Lines
import Bindery.Text.Replace
import Bindery.Text.Blank

/-!
# The loader in the page

Every script begins with the same few lines, which set up a table of modules unless the page has
one already. Behind them each module is put into the table by a definition: a header line that
names the module and says what its specifiers mean, the lines of its body, and a closing line. The
script of an entry ends with lines that run the roots of the entry.
-/

namespace Bindery.Loader

/-- The lines at the start of every script. -/
def preludeLines : List String :=
  [ "(function (g) \x7b",
    "  if (g.__sheaf) return;",
    "  var factories = \x7b\x7d;",
    "  var cache = \x7b\x7d;",
    "  function load(id) \x7b",
    "    var cached = cache[id];",
    "    if (cached) return cached.exports;",
    "    var entry = factories[id];",
    "    if (!entry) throw new Error(\"sheaf: module '\" + id + \"' is not loaded\");",
    "    var module = (cache[id] = \x7b id: id, exports: \x7b\x7d \x7d);",
    "    entry.factory.call(module.exports, module, module.exports, function (specifier) \x7b",
    "      return load(entry.deps[specifier] || specifier);",
    "    \x7d);",
    "    return module.exports;",
    "  \x7d",
    "  g.__sheaf = \x7b",
    "    define: function (id, deps, factory) \x7b factories[id] = \x7b deps: deps, factory: factory \x7d; \x7d,",
    "    require: load,",
    "    invalidate: function (id) \x7b delete cache[id]; \x7d",
    "  \x7d;",
    "\x7d)(typeof globalThis !== \"undefined\" ? globalThis : self);" ]

/-- The text at the start of every script. -/
def prelude : String := Text.unlines preludeLines

/-- How the header line of a definition begins. -/
def headerStart : String := "__sheaf.define("

/-- The header line of a definition. -/
def header (id : ModuleId) (dependencies : Json) : String :=
  headerStart ++ Json.quote id.text ++ ", " ++ dependencies.compact
    ++ ", function (module, exports, require) \x7b"

/-- The last line of a definition. -/
def closing : String := "\x7d);"

/-- The definition of a module. The body ends in a line feed. -/
def definition (id : ModuleId) (dependencies : Json) (body : String) : String :=
  header id dependencies ++ "\n" ++ body ++ closing ++ "\n"

/-- The line that runs a module. -/
def boot (id : ModuleId) : String := "__sheaf.require(" ++ Json.quote id.text ++ ");\n"

/-- The text with a line feed at its end. -/
def terminated (text : String) : String :=
  if text.toList.getLast? = some '\n' then text else text ++ "\n"

/-- The address by which the page's tools know a module. -/
def address (id : String) : String := "sheaf:///" ++ id

/-- A body that carries its own address, as a single line. -/
def addressed (id : ModuleId) (body : String) : String :=
  "eval(" ++ Json.quote (body ++ "\n//# sourceURL=" ++ address id.text) ++ ");\n"

/-- The module that a header line names; other lines name none. -/
def headerId? (line : List Char) : Option String := do
  let rest ← Text.stripStart? headerStart.toList (Text.trimStart line)
  let (id, _) ← Json.unquote? (rest.dropWhile fun c => c = ' ' || c = '\n' || c = '\t' || c = '\r')
  return String.ofList id

end Bindery.Loader
