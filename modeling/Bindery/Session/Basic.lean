import Bindery.Session.Update

/-!
# Sessions

A session builds once and then again whenever something changed. One cycle runs at a time. Changes
that come while it runs make it stale: what it comes to is thrown away, and the next cycle begins
at once with everything that was touched since the last good build. A cycle that fails keeps the
last good build and waits for the next change; what it was to take care of stays carried.

The machine is a step function on signals. A cycle is one signal, the one of its completion: it
says what project the build saw, and the files are written then.
-/

namespace Bindery

/-- Where a session stands. -/
inductive SessionStatus where
  /-- Nothing has begun. -/
  | idle
  /-- A cycle runs. What a stale one comes to is thrown away. -/
  | building (cycle : Nat) (stale : Bool)
  /-- Waiting for changes. A page is there when the last cycle failed. -/
  | ready (page : Option ErrorPage)
  | shutDown
  deriving DecidableEq, Repr

namespace SessionStatus

def isBuilding : SessionStatus → Bool
  | .building _ _ => true
  | _ => false

/-- The page that is shown in place of the built one. -/
def page? : SessionStatus → Option ErrorPage
  | .ready page => page
  | _ => none

end SessionStatus

/-- What a session goes by. -/
structure Session where
  bundler : Bundler
  /-- Where the page of a failed build is written, if anywhere. -/
  pagePath : Option String

/-- A session at one moment. -/
structure SessionState where
  status : SessionStatus := .idle
  /-- The number of the last cycle that began. -/
  cycle : Nat := 0
  /-- What was touched since the last good build and before the last cycle began. -/
  carried : IdSet := []
  /-- What was touched since the last cycle began. -/
  pending : IdSet := []
  /-- Whether the stream of changes has ended. -/
  closed : Bool := false
  /-- What the last good cycle came to. -/
  lastGood : Option Snapshot := none

/-- What can happen to a session. -/
inductive Signal where
  /-- The first cycle begins. -/
  | begun
  /-- Paths have changed. -/
  | changed (paths : List String)
  /-- No more changes will come. -/
  | closed
  /-- The build of the cycle is through; it saw the project like this. -/
  | built (seen : Project) (durationMs : Nat)
  /-- The session is told to stop. -/
  | stopped

namespace SessionState

/-- Begins the next cycle, which takes care of all that was touched. -/
def startCycle (st : SessionState) : SessionState :=
  { st with
    status := .building (st.cycle + 1) false
    cycle := st.cycle + 1
    carried := IdSet.insertAll st.pending st.carried
    pending := [] }

/-- Notes what was touched. Paths that no module can have are left out. -/
def absorb (root : String) (paths : List String) (st : SessionState) : SessionState :=
  { st with pending := IdSet.insertAll (paths.filterMap (ModuleId.ofPath? root)) st.pending }

/-- Takes in changes: a waiting session starts a cycle, a running cycle goes stale. -/
def receive (root : String) (paths : List String) (st : SessionState) : SessionState :=
  let noted := st.absorb root paths
  if noted.pending = [] then noted
  else
    match st.status with
    | .building cycle _ => { noted with status := .building cycle true }
    | .ready _ => noted.startCycle
    | _ => noted

/-- The state after a good cycle. -/
def succeed (s : Snapshot) (st : SessionState) : SessionState :=
  { st with status := .ready none, carried := [], lastGood := some s }

/-- The state after a failed cycle. -/
def fail (page : ErrorPage) (st : SessionState) : SessionState :=
  { st with status := .ready (some page) }

def stop (st : SessionState) : SessionState := { st with status := .shutDown }

end SessionState

namespace Session

/-- The name of the page of a failed build in the output directory. -/
def pageName : String := "__sheaf_error.html"

/-- A session that builds with a bundler. -/
def ofBundler (b : Bundler) (writesPage : Bool) : Session :=
  { bundler := b
    pagePath :=
      if writesPage then some (Path.join b.profile.outputDirectory pageName) else none }

/-- The build of a cycle: the first good one is built from nothing, later ones go on from it. -/
def build (s : Session) (st : SessionState) (seen : Project) : OutputM Snapshot :=
  match st.lastGood with
  | none => s.bundler.build seen
  | some last => s.bundler.rebuild seen (some last) st.carried

/-- Writes the page of a failed build. A session goes on without it when it cannot be written. -/
def showPage (s : Session) (page : ErrorPage) : StateM Disk Unit :=
  match s.pagePath with
  | some path => do
    let _ ← (Output.writeDurably path page.text.toUTF8).run
  | none => pure ()

/-- Removes the page of a failed build. -/
def hidePage (s : Session) : StateM Disk Unit :=
  match s.pagePath with
  | some path => do
    let _ ← (Disk.removeFile path).run
  | none => pure ()

/-- Completes a cycle. Its files have been written even if it is stale. -/
def finish (s : Session) (seen : Project) (durationMs : Nat) (st : SessionState) (cycle : Nat)
    (stale : Bool) : StateM Disk (SessionState × Option SessionUpdate) := do
  let result ← (s.build st seen).run
  if stale then return (st.startCycle, none)
  match result with
  | .ok snapshot =>
    s.hidePage
    return (st.succeed snapshot, some (.ofSnapshot cycle snapshot durationMs))
  | .error e =>
    let page := ErrorPage.ofError e
    s.showPage page
    return (st.fail page, some (.ofPage cycle page durationMs))

/-- What a signal does: the state after it, and the update that is published, if any. A session
that waits for changes while none can come any more has only one step left, which is to stop. -/
def step (s : Session) (st : SessionState) (signal : Signal) :
    StateM Disk (SessionState × Option SessionUpdate) :=
  let root := s.bundler.profile.root
  match st.status, signal with
  | .shutDown, _ => pure (st, none)
  | _, .stopped => pure (st.stop, none)
  | .idle, .begun => pure (st.startCycle, none)
  | .idle, .closed => pure ({ st with closed := true }, none)
  | .idle, .changed paths => pure (st.receive root paths, none)
  | .idle, .built _ _ => pure (st, none)
  | .building _ _, .begun => pure (st, none)
  | .building _ _, .closed => pure ({ st with closed := true }, none)
  | .building _ _, .changed paths => pure (if st.closed then st else st.receive root paths, none)
  | .building cycle stale, .built seen durationMs => s.finish seen durationMs st cycle stale
  | .ready _, .closed => pure (st.stop, none)
  | .ready _, .changed paths => pure (if st.closed then st.stop else st.receive root paths, none)
  | .ready _, _ => pure (if st.closed then st.stop else st, none)

/-- What a list of signals does, with all updates that are published. -/
def run (s : Session) (st : SessionState) :
    List Signal → StateM Disk (SessionState × List SessionUpdate)
  | [] => pure (st, [])
  | signal :: r => do
    let (next, update) ← s.step st signal
    let (last, updates) ← s.run next r
    return (last, update.toList ++ updates)

end Session

end Bindery
