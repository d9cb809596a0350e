import Bindery.Engine.Basic
import Bindery.Profile.Rule
import Bindery.Bundle.Error

/-!
# How a module is treated

Asset rules come first: what one of them matches is copied and never goes through an engine. Of the
other rules the first one that applies gives the chain of engines.
-/

namespace Bindery

/-- What happens to a module. -/
inductive Treatment where
  /-- It is copied under a name made from the template. -/
  | asset (ruleIndex : Nat) (filename : String)
  /-- It goes through the engines of a rule. -/
  | transform (ruleIndex : Nat) (chain : List EngineStep)
  /-- It is used as it is. -/
  | passThrough
  deriving BEq

namespace Treatment

/-- The first member with a property, with its place. -/
def firstWith (p : α → Bool) (items : List α) : Option (Nat × α) :=
  (items.findIdx? p).bind fun i => (items[i]?).map (i, ·)

/-- The first rule that applies to a text. -/
def matchingRule? (text : String) (rules : List Rule) : Option (Nat × Rule) :=
  firstWith (·.applies text) rules

/-- The first asset rule that matches a text. -/
def matchingAsset? (text : String) (assets : List AssetRule) : Option (Nat × AssetRule) :=
  firstWith (·.test.isMatch text) assets

/-- The chain of engines for a text, leaving asset rules aside. -/
def chainFor (text : String) (rules : List Rule) : List EngineStep :=
  ((matchingRule? text rules).map (·.2.chain)).getD []

/-- How the module with an id is treated. -/
def classify (text : String) (rules : List Rule) (assets : List AssetRule) : Treatment :=
  match matchingAsset? text assets with
  | some (i, a) => .asset i a.filename
  | none =>
    match matchingRule? text rules with
    | some (i, r) => .transform i r.chain
    | none => .passThrough

def isAsset : Treatment → Bool
  | .asset _ _ => true
  | _ => false

/-- The engines to run. -/
def chain : Treatment → List EngineStep
  | .transform _ chain => chain
  | _ => []

/-- The first engine of a chain that is not registered, as an error. -/
def engineFault? (module : ModuleId) (registry : EngineRegistry) : Treatment → Option BuildError
  | .transform i chain =>
    (chain.find? fun s => !registry.has s.engine).map fun s =>
      .unknownTransform module i s.engine
  | _ => none

end Treatment

end Bindery
