import Bindery.CommandLine.Measure

/-!
# Lines for people

What a command tells people goes line by line to the terminal, each line with a mark that says what
kind it is. Colors only add to the text.
-/

namespace Bindery

/-- A terminal that people look at. -/
structure Terminal where
  colored : Bool := false
  /-- How many characters fit on a line. -/
  width : Nat := 80
  /-- How a span of milliseconds is shown. -/
  showTime : Nat → String := Measure.duration

namespace Terminal

/-- What kind of line it is. -/
inductive Tone where
  | success
  | info
  | warning
  | failure
  deriving DecidableEq, Repr

def Tone.mark : Tone → String
  | .success => "✓"
  | .info => "ℹ"
  | .warning => "⚠"
  | .failure => "✗"

/-- The number of the color of a tone. -/
def Tone.color : Tone → Nat
  | .success => 32
  | .info => 34
  | .warning => 33
  | .failure => 31

/-- The message itself has the color only where something is wrong. -/
def Tone.isLoud : Tone → Bool
  | .warning => true
  | .failure => true
  | _ => false

/-- Text behind a switch that sets how it looks, and before the one that ends that. -/
def switched (on off : Nat) (text : String) : String :=
  "\x1b[" ++ toString on ++ "m" ++ text ++ "\x1b[" ++ toString off ++ "m"

/-- Text in a color. -/
def inColor (color : Nat) : String → String := switched color 39

def bold : String → String := switched 1 0

def dimmed : String → String := switched 2 0

def underlined : String → String := switched 4 0

/-- A text that looks different on a colored terminal. -/
def styled (t : Terminal) (style : String → String) (text : String) : String :=
  if t.colored then style text else text

/-- A line with its mark. -/
def line (t : Terminal) (tone : Tone) (message : String) : String :=
  let mark := t.styled (fun s => bold (inColor tone.color s)) tone.mark
  let shown := if tone.isLoud then t.styled (inColor tone.color) message else message
  mark ++ " " ++ shown ++ "\n"

/-- The least and the greatest width of a rule. -/
def ruleLimits : Nat × Nat := (20, 80)

/-- A line from side to side. -/
def rule (t : Terminal) : String :=
  String.ofList (List.replicate (max ruleLimits.1 (min t.width ruleLimits.2)) '─') ++ "\n"

end Terminal

end Bindery
