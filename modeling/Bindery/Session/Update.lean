import Bindery.Bundle.Build
import Bindery.Session.ErrorPage

/-!
# Updates

A session publishes one update for each cycle that completes: which modules differ from the build
before, and whether running pages can take that over, or what went wrong.
-/

namespace Bindery

/-- What a session tells about a completed cycle. -/
structure SessionUpdate where
  cycle : Nat
  success : Bool
  /-- The modules that differ from the last good build. -/
  changed : IdSet := []
  /-- Whether running pages have to be loaded again. -/
  fullReload : Bool := false
  /-- Why they have to; the first build needs no reason. -/
  reason : Option ReloadReason := none
  /-- The messages of the single errors. -/
  errors : List String := []
  failedModules : List ModuleId := []
  durationMs : Nat
  deriving DecidableEq, Repr

namespace SessionUpdate

/-- The update about a good build. No page can go on from before the first one. -/
def ofSnapshot (cycle : Nat) (s : Snapshot) (durationMs : Nat) : SessionUpdate :=
  match s.update with
  | some u =>
    { cycle, success := true, changed := u.changed, fullReload := u.isFullReload
      reason := u.reload, durationMs }
  | none => { cycle, success := true, fullReload := true, durationMs }

/-- The update about a failed build. -/
def ofPage (cycle : Nat) (page : ErrorPage) (durationMs : Nat) : SessionUpdate :=
  { cycle, success := false, errors := page.messages, failedModules := page.modules, durationMs }

@[simp] theorem cycle_ofSnapshot (cycle : Nat) (s : Snapshot) (durationMs : Nat) :
    (ofSnapshot cycle s durationMs).cycle = cycle := by
  unfold ofSnapshot
  split <;> rfl

@[simp] theorem success_ofSnapshot (cycle : Nat) (s : Snapshot) (durationMs : Nat) :
    (ofSnapshot cycle s durationMs).success = true := by
  unfold ofSnapshot
  split <;> rfl

@[simp] theorem cycle_ofPage (cycle : Nat) (page : ErrorPage) (durationMs : Nat) :
    (ofPage cycle page durationMs).cycle = cycle := rfl

@[simp] theorem success_ofPage (cycle : Nat) (page : ErrorPage) (durationMs : Nat) :
    (ofPage cycle page durationMs).success = false := rfl

/-- The members by which an update is told to other programs, but for its duration. Lists of what
went wrong are only there when something did. -/
def members (u : SessionUpdate) : List (String × Json) :=
  [("cycle", .int u.cycle), ("success", .bool u.success),
    ("changed", .arr (u.changed.map fun id => .str id.text)),
    ("full_reload", .bool u.fullReload)]
    ++ (match u.reason with
      | some r => r.members
      | none => [])
    ++ listMember "errors" u.errors
    ++ listMember "failed_modules" (u.failedModules.map ModuleId.text)
where
  listMember (key : String) : List String → List (String × Json)
    | [] => []
    | items => [(key, .arr (items.map Json.str))]

/-- An update as it is told to other programs. -/
def json (u : SessionUpdate) : Json := .obj (u.members ++ [("duration_ms", .int u.durationMs)])

end SessionUpdate

end Bindery
