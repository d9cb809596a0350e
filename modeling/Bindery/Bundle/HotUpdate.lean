import Bindery.Graph.Change
import Bindery.Json.Basic
import Bindery.Pattern.Compiled

/-!
# Updating running pages

A running page can take over changed modules only if none of them leaves traces outside of itself.
Whenever that is not certain, the page has to be loaded again.
-/

namespace Bindery

/-- Why a page has to be loaded again. -/
inductive ReloadReason where
  | hotDisabled
  /-- Modules appeared or disappeared. -/
  | structural
  /-- A module writes to the global object, or cannot be looked at. -/
  | globalState (module : ModuleId)
  /-- A module matches a pattern of the settings. -/
  | pattern (module : ModuleId) (text : String)
  deriving DecidableEq, Repr

def ReloadReason.message : ReloadReason → String
  | .hotDisabled => "hot updates are disabled"
  | .structural => "modules were added or removed"
  | .globalState module => "'" ++ module.text ++ "' writes to global state"
  | .pattern module text =>
    "'" ++ module.text ++ "' matches full reload pattern '" ++ text ++ "'"

/-- The members by which a reason is told to other programs. -/
def ReloadReason.members : ReloadReason → List (String × Json)
  | .hotDisabled => [("reason", .str "hot-disabled")]
  | .structural => [("reason", .str "structural")]
  | .globalState module => [("reason", .str "global-state"), ("module", .str module.text)]
  | .pattern module text =>
    [("reason", .str "pattern"), ("module", .str module.text), ("pattern", .str text)]

/-- What running pages are told about a rebuild. -/
structure HotUpdate where
  changed : IdSet
  /-- How many modules are affected by the changes. -/
  affected : Nat
  /-- Absent when the page can take the changes over. -/
  reload : Option ReloadReason
  deriving DecidableEq, Repr

namespace HotUpdate

/-- Why a page cannot take over a changed module. -/
def moduleReason? (g : ModuleGraph) (patterns : List Pattern) (id : ModuleId) :
    Option ReloadReason :=
  match patterns.find? (·.isMatch id.text) with
  | some p => some (.pattern id p.source)
  | none =>
    if (g.module? id).all (·.hasGlobalState) then some (.globalState id) else none

/-- The first reason against taking changes over. `g` is the newer graph. -/
def reason? (c : ChangeSet) (g : ModuleGraph) (hot : Bool) (patterns : List Pattern) :
    Option ReloadReason :=
  if !hot then some .hotDisabled
  else if c.isStructural then some .structural
  else c.changedIds.findSome? (moduleReason? g patterns)

/-- What to tell running pages about changes. -/
def plan (c : ChangeSet) (g : ModuleGraph) (hot : Bool) (patterns : List Pattern) : HotUpdate :=
  { changed := c.changedIds, affected := c.affected.length, reload := reason? c g hot patterns }

def isFullReload (u : HotUpdate) : Bool := u.reload.isSome

end HotUpdate

end Bindery
