import Bindery.Text.Blank

/-!
# Build modes and environment flags
-/

namespace Bindery

/-- How a build is run. -/
inductive Mode where
  /-- Quick rebuilds: plain file names, one file for each entry, updates while running. -/
  | development
  /-- A finished site: shared files, names that change with the content, a manifest. -/
  | production
  deriving DecidableEq, Repr

namespace Mode

def name : Mode → String
  | .development => "development"
  | .production => "production"

/-- The ASCII letters of a text in lower case. -/
def lower (text : String) : String := String.ofList (text.toList.map Char.toLower)

/-- The mode that a word means; case does not matter, and the short forms do as well. -/
def ofName? (word : String) : Option Mode :=
  match lower word with
  | "development" => some .development
  | "dev" => some .development
  | "production" => some .production
  | "prod" => some .production
  | _ => none

/-- What is said about a word that means no mode. -/
def unknownMessage (word : String) : String := "unknown mode: " ++ lower word

end Mode

/-- What the environment says about a build. -/
structure EnvFlags where
  /-- The development build is served. -/
  enableDevServer : Bool := false
  /-- The build runs unattended. -/
  ci : Bool := false
  deriving DecidableEq, Repr

namespace EnvFlags

/-- Everything but nothing and the four words for no counts as yes. -/
def isTruthy (value : String) : Bool :=
  let value := Text.trim value
  value != "" && !(["0", "false", "no", "off"].contains (Mode.lower value))

/-- Reads one variable; those with other names change nothing. -/
def readPair (flags : EnvFlags) (pair : String × String) : EnvFlags :=
  match pair.1 with
  | "ENABLE_DEV_SERVER" => { flags with enableDevServer := isTruthy pair.2 }
  | "CI" => { flags with ci := isTruthy pair.2 }
  | _ => flags

/-- The flags that variables set; of two with the same name the later one counts. -/
def ofPairs (pairs : List (String × String)) : EnvFlags := pairs.foldl readPair {}

end EnvFlags

end Bindery
