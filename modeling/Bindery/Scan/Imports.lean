import Bindery.Scan.Matcher
import Bindery.Module.Import

/-!
# Finding imports in a source

Only the edges of the graph are wanted, not the structure of the source, so each form of an import
has a matcher of its own over the plain text. What the forms find is put in the order in which it
stands in the text, and a specifier that is used twice in the same way counts once.
-/

namespace Bindery.Scan

/-- Either quotation mark. -/
def quoteMark : Matcher := oneOf fun c => c = '"' || c = '\''

/-- A specifier between quotation marks, on one line. -/
def quoted : Matcher :=
  inOrder [quoteMark, capture (run1 fun c => c != '"' && c != '\'' && c != '\n'), quoteMark]

/-- Characters of a name. -/
def isNameChar (c : Char) : Bool := Unicode.isWord c || c = '$'

/-- Characters that can stand between the word `import` and the word `from`. -/
def isClauseChar (c : Char) : Bool :=
  isNameChar c || c = '*' || c = '\x7b' || c = '\x7d' || c = ',' || Text.isBlank c

/-- The word `type` and blanks, or nothing. -/
def typeWord : Matcher := optional (inOrder [word "type".toList, blanks1])

/-- An import statement at the start of a line. -/
def importStatement : Matcher :=
  inOrder [lineStart, blanks, word "import".toList, blanks1, typeWord,
    optional (inOrder [lazyRun1 isClauseChar, blanks1, word "from".toList, blanks1]), quoted]

/-- What an exporting statement takes over: everything, possibly under one name, or a list. -/
def exportClause : Matcher :=
  orElse
    (inOrder [word ['*'], optional (inOrder [blanks1, word "as".toList, blanks1, run1 isNameChar])])
    (inOrder [word ['\x7b'], run (· != '\x7d'), word ['\x7d']])

/-- A statement at the start of a line that exports from another module. -/
def exportStatement : Matcher :=
  inOrder [lineStart, blanks, word "export".toList, blanks1, typeWord, exportClause, blanks1,
    word "from".toList, blanks1, quoted]

/-- A call of the named function with a quoted text as its only argument. -/
def callOf (name : String) : Matcher :=
  inOrder [wordEdge, word name.toList, word ['('], blanks, quoted, blanks, word [')']]

/-- An import rule of a style sheet, up to its semicolon. -/
def styleImport : Matcher :=
  inOrder [word "@import".toList, blanks1, optional (inOrder [word "url(".toList, blanks]),
    optional quoteMark,
    capture (run1 fun c =>
      c != '"' && c != '\'' && c != '(' && c != ')' && c != ';' && !Text.isBlank c),
    optional quoteMark, blanks, optional (word [')']), run (· != ';'), word [';']]

/-- A reference of a style sheet. -/
def styleUrl : Matcher :=
  inOrder [word "url(".toList, blanks, optional quoteMark,
    capture (lazyRun1 fun c => c != '"' && c != '\'' && c != '(' && c != ')'),
    optional quoteMark, blanks, word [')']]

/-- The names of the global object. -/
def globalNames : List String := ["window", "globalThis", "global", "self"]

/-- Access to a property, by name or by a key in brackets. -/
def propertyAccess : Matcher :=
  orElse (inOrder [blanks, word ['.'], blanks, run1 isNameChar])
    (inOrder [blanks, word ['['], run1 (· != ']'), word [']']])

/-- The assignments that count as writing: a single equals sign, and adding to or subtracting
from what is there. -/
def assignment : Matcher :=
  orElse (inOrder [word ['='], oneOf (· != '=')]) (anyWord ["+=", "-="])

/-- A write to a property of the global object. -/
def globalWrite : Matcher :=
  orElse
    (inOrder [wordEdge, anyWord globalNames, repeat1 propertyAccess, blanks, assignment])
    (inOrder [word "Object.".toList, anyWord ["assign", "defineProperty"], word ['('], blanks,
      anyWord globalNames, wordEdge])

/-- An import with the place of its specifier in the text. -/
abbrev Placed := Nat × Import

/-- The imports that one form finds, all used in the same way. -/
def collect (m : Matcher) (kind : ImportKind) (text : List Char) : List Placed :=
  (findAll m text).filterMap fun f =>
    f.captured.map fun (i, spec) => (i, { specifier := String.ofList spec, kind := kind : Import })

/-- Drops an import that repeats the specifier and use of an earlier one. -/
def dropRepeated (imports : List Import) : List Import :=
  imports.foldl (fun kept i =>
    if kept.any fun k => k.specifier == i.specifier && k.kind == i.kind then kept
    else kept ++ [i]) []

/-- Imports in the order of their places, each once. -/
def inTextOrder (found : List Placed) : List Import :=
  dropRepeated ((found.mergeSort fun a b => a.1 ≤ b.1).map (·.2))

/-- The imports of a script. -/
def scriptImports (source : String) : List Import :=
  let text := source.toList
  inTextOrder (collect importStatement .static text ++ collect exportStatement .reExport text
    ++ collect (callOf "import") .dynamic text ++ collect (callOf "require") .static text)

/-- A reference to a file of the project: neither inline data, nor an address on another host, nor
a place in the same document. -/
def isLocalReference (specifier : String) : Bool :=
  let s := (Text.trim specifier).toList
  !(s.isEmpty || ["data:", "http://", "https://", "//", "#"].any fun p => p.toList.isPrefixOf s)

/-- The imports of a style sheet. A reference inside of an import rule belongs to the rule. -/
def styleImports (source : String) : List Import :=
  let text := source.toList
  let rules := findAll styleImport text
  let ruleImports := rules.filterMap fun f =>
    f.captured.bind fun (i, spec) =>
      let specifier := String.ofList spec
      if isLocalReference specifier then
        some (i, { specifier := specifier, kind := .static : Import })
      else none
  let urlImports := (findAll styleUrl text).filterMap fun f =>
    f.captured.bind fun (i, spec) =>
      let specifier := String.ofList spec
      let inRule := rules.any fun r => r.start ≤ i && i < r.stop
      if !inRule && isLocalReference specifier then
        some (i, { specifier := Text.trim specifier, kind := .url : Import })
      else none
  inTextOrder (ruleImports ++ urlImports)

/-- Whether a script writes to a property of the global object, so that it cannot be replaced
while it runs. -/
def writesGlobalState (source : String) : Bool := occurs globalWrite none source.toList

end Bindery.Scan
