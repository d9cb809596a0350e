import Bindery.Path

/-!
# Batches of changes

One save often touches several files. Changes that come shortly after another are therefore
gathered, and a batch goes out when it has been quiet for a while, or when the batch has been open
for a good while. A batch names every path once.

Whoever reports changes, whoever takes batches, the clock and the gatherer between them take turns
in no fixed order. So the gatherer is a machine that goes from one place where it may be interrupted
to the next, and a run is a list of events, some of them turns of the gatherer.
-/

namespace Bindery

/-- A changed path and when it came, in milliseconds. -/
structure Arrival where
  time : Nat
  path : String
  deriving DecidableEq, Repr

/-- Paths that go out together, and when. -/
structure Batch where
  time : Nat
  paths : List String
  deriving DecidableEq, Repr

namespace Batch

/-- How many windows a batch stays open at most. -/
def windowLimit : Nat := 10

/-- The paths of a batch and another one, unless it is there. Paths with the same components are the
same. -/
def note (paths : List String) (path : String) : List String :=
  if paths.any fun q => Path.components q == Path.components path then paths else paths ++ [path]

end Batch

/-- Where a gatherer is. -/
inductive Gatherer.Phase where
  /-- It has no batch and waits for a path. -/
  | resting
  /-- It has a batch and looks how long it still waits for another path. -/
  | opened (deadline : Nat) (paths : List String)
  /-- It waits for another path until some time. -/
  | waiting (deadline till : Nat) (paths : List String)
  /-- It waits for room for the batch. There may be nothing to do after it. -/
  | sending (paths : List String) (last : Bool)
  /-- It has come to its end. -/
  | done
  deriving DecidableEq, Repr

/-- A gatherer between the stream of paths and the stream of batches. -/
structure Gatherer where
  now : Nat := 0
  /-- The paths that came and are not read yet. -/
  incoming : List String := []
  /-- No more paths come. -/
  closed : Bool := false
  phase : Gatherer.Phase := .resting
  /-- The batches that went out and are not taken yet. -/
  outgoing : List (List String) := []
  received : List Batch := []
  /-- No more batches are taken. -/
  hungUp : Bool := false
  deriving DecidableEq, Repr

namespace Gatherer

/-- What reading from the stream of paths comes to. -/
inductive Reading where
  | path (path : String) (rest : List String)
  | ended
  | pending
  deriving DecidableEq, Repr

/-- Reads from the stream. A read that is not served gives nothing, even if there is something; a
stream that is closed is read to its end. -/
def read (s : Gatherer) : Bool → Reading
  | false => .pending
  | true =>
    match s.incoming with
    | path :: rest => .path path rest
    | [] => if s.closed then .ended else .pending

/-- What a gatherer does when it gets to run. A path that can be read is read even if the time for it
is over; one that is not served then is left in the stream. -/
def turn (window room : Nat) (s : Gatherer) (served : Bool) : Gatherer :=
  match s.phase with
  | .resting =>
    match s.read served with
    | .path path rest =>
      { s with incoming := rest, phase := .opened (s.now + window * Batch.windowLimit) [path] }
    | .ended => { s with phase := .done }
    | .pending => s
  | .opened deadline paths =>
    let wait := min window (deadline - s.now)
    if wait = 0 then { s with phase := .sending paths false }
    else { s with phase := .waiting deadline (s.now + wait) paths }
  | .waiting deadline till paths =>
    match s.read served with
    | .path path rest =>
      { s with incoming := rest, phase := .opened deadline (Batch.note paths path) }
    | .ended => { s with phase := .sending paths true }
    | .pending => if till ≤ s.now then { s with phase := .sending paths false } else s
  | .sending paths last =>
    if s.hungUp then { s with phase := .done }
    else if served && s.outgoing.length < room then
      { s with outgoing := s.outgoing ++ [paths], phase := if last then .done else .resting }
    else s
  | .done => s

/-- What can happen. -/
inductive Event where
  /-- The clock shows some time. It never goes back. -/
  | clock (time : Nat)
  | arrive (path : String)
  /-- No more paths come. -/
  | close
  /-- The gatherer gets to run; what it asks of a stream may be served or not. -/
  | turn (served : Bool)
  /-- The oldest batch is taken. -/
  | take
  /-- No more batches are taken. -/
  | hangUp
  deriving DecidableEq, Repr

def step (window room : Nat) (s : Gatherer) : Event → Gatherer
  | .clock time => { s with now := max s.now time }
  | .arrive path =>
    if s.closed || s.phase = .done then s else { s with incoming := s.incoming ++ [path] }
  | .close => { s with closed := true }
  | .turn served => s.turn window room served
  | .take =>
    match s.outgoing with
    | [] => s
    | paths :: rest =>
      { s with outgoing := rest, received := s.received ++ [{ time := s.now, paths }] }
  | .hangUp => { s with hungUp := true, outgoing := [] }

/-- Some events one after the other. A batch stays open for some windows and as many batches as there
is room for can wait to be taken. -/
def run (window room : Nat) (s : Gatherer) (events : List Event) : Gatherer :=
  events.foldl (step window room) s

/-- What happens on its own before some time: a batch goes out because nothing joined it. -/
def eventsBefore (s : Gatherer) (time : Nat) : List Event :=
  match s.phase with
  | .waiting _ till _ =>
    if till < time then [.clock till, .turn true, .turn true, .take] else []
  | _ => []

/-- Something happens at some time, and the gatherer runs until it waits again. What is to happen
before that time happens first. -/
def happen (window : Nat) (s : Gatherer) (time : Nat) (e : Event) : Gatherer :=
  (s.run window 1 (s.eventsBefore time)).run window 1
    [.clock time, e, .turn true, .turn true, .turn true, .take]

end Gatherer

/-- The batches that go out when paths arrive until the stream closes and each batch is taken at
once. Paths arrive in order; one that says it is older than the one before it comes together with
that. -/
def Batch.gather (window closeAt : Nat) (arrivals : List Arrival) : List Batch :=
  let s := arrivals.foldl (fun s a => s.happen window a.time (.arrive a.path)) ({} : Gatherer)
  (s.happen window closeAt .close).received

end Bindery
