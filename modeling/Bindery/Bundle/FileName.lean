import Bindery.Digest.Blake3
import Bindery.Module.Id
import Bindery.Text.Replace

/-!
# Names of output files

In production a file's name holds the first eight digits of the digest of its content, so that a
name never stands for two contents; in development it does not. Copies are named by the template
of their rule.
-/

namespace Bindery.FileName

open Text (replace)

/-- The first eight digits of the digest. -/
def fingerprint (bytes : ByteArray) : String :=
  String.ofList ((Digest.blake3 bytes).toList.take 8)

/-- What a file of a chunk is for. -/
inductive Role where
  | entryScript
  | chunkScript
  | style
  deriving DecidableEq, Repr

/-- The name without what would lead elsewhere or break an address. -/
def sanitize (name : String) : String :=
  String.ofList (name.toList.map fun c =>
    if c = '/' || c = '\\' || c = ':' || c = '?' || c = '#' || c = '\x00' then '_' else c)

/-- What stands behind the name of a chunk. -/
def Role.ending (hash : Option String) : Role → String
  | .entryScript => ".bundle" ++ (hash.map ("." ++ ·)).getD "" ++ ".js"
  | .chunkScript => ".chunk" ++ (hash.map ("." ++ ·)).getD "" ++ ".js"
  | .style => (hash.map ("." ++ ·)).getD "" ++ ".css"

/-- The name of a file of a chunk. A name that holds the mark of the digest has it replaced as
well. -/
def ofChunk (name : String) (role : Role) (bytes : ByteArray) (hashed : Bool) : String :=
  if hashed then
    replace (sanitize name ++ role.ending (some "[hash]")) "[hash]" (fingerprint bytes)
  else sanitize name ++ role.ending none

/-- The name of a copy: the marks of the template stand for the name, the extension and the digest.
A point at the end is dropped. -/
def ofAsset (template : String) (id : ModuleId) (bytes : ByteArray) : String :=
  let named := replace template "[name]" (sanitize id.fileStem)
  let named := replace named "[ext]" (id.extension?.getD "")
  let named := replace named "[hash]" (fingerprint bytes)
  match named.toList.reverse with
  | '.' :: r => String.ofList r.reverse
  | _ => named

/-- The name of the source map beside a file. -/
def sourceMap (file : String) : String := file ++ ".map"

/-- The part of a name behind its last slash. -/
def base (file : String) : String :=
  String.ofList (file.toList.reverse.takeWhile (· != '/')).reverse

end Bindery.FileName
