import Bindery.Digest.Blake3
import Bindery.Json.Basic
import Bindery.Module.Id
import Bindery.Text.Utf8

/-!
# Looking into values

Values of the library as JSON, for tools that show or compare them. This module has what all of
them share.
-/

namespace Bindery.Inspect

/-- A value that may be absent. -/
def optJson (f : α → Json) : Option α → Json
  | none => .null
  | some a => f a

def str (s : String) : Json := .str s

def nat (n : Nat) : Json := .int n

/-- A list of values. -/
def arrOf (f : α → Json) (l : List α) : Json := .arr (l.map f)

/-- Values by name. -/
def mapOf (f : α → Json) (l : List (String × α)) : Json := .obj (l.map fun (k, x) => (k, f x))

def strs (l : List String) : Json := arrOf str l

def idJson (id : ModuleId) : Json := .str id.text

def idsJson (ids : List ModuleId) : Json := arrOf idJson ids

/-- The hexadecimal digits of some bytes. -/
def hexText (b : ByteArray) : String :=
  String.ofList (b.toList.flatMap fun x => Text.hexByte x.toNat)

/-- How many bytes are shown in full. -/
def shownLimit : Nat := 20000

/-- Bytes: as text where they are one, and by their digest where there are too many. -/
def bytesJson (b : ByteArray) : Json :=
  if b.size > shownLimit then .obj [("blake3", .str (Digest.blake3 b)), ("size", nat b.size)]
  else
    match Text.Utf8.decode? b with
    | some s => .obj [("text", .str s)]
    | none => .obj [("hex", .str (hexText b))]

end Bindery.Inspect
