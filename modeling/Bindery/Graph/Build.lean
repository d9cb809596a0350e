import Bindery.Graph.Basic
import Bindery.Graph.Error
import Bindery.Graph.Lookup
import Bindery.Number.Total

/-!
# Building a graph

Modules are loaded by tasks that run at the same time. Each finished task may ask for more
modules; an id is asked for once. A schedule says which of the running tasks finishes next, so
that what is said about all schedules is said about all orders of completion.

A rebuild takes over the modules of an earlier graph except those that were touched, the importers
of those, and modules with an import that means nothing.
-/

namespace Bindery

/-- For each completion, counted from zero, the place of the finishing task among the running
ones, in the order in which they were started (counted round where there are fewer). -/
abbrev Schedule := Nat → Nat

/-- Tasks finish in the order in which they were started. -/
def Schedule.inOrder : Schedule := fun _ => 0

/-- The outcome of building a graph. -/
structure GraphBuild where
  graph : ModuleGraph
  /-- All failures, in order of their messages. -/
  errors : List GraphError
  /-- How many modules were read. -/
  loaded : Nat
  /-- How many modules were taken over. -/
  reused : Nat

/-- How a graph is built: where specifiers are looked up, and whether something that is not found
is replaced by a stand-in. -/
structure GraphBuilder where
  lookup : Lookup
  stubUnresolved : Bool

namespace GraphBuilder

/-- The imports with their targets, and the failures; `none` if a target has no id. -/
def resolveImports (b : GraphBuilder) (p : Project) (id : ModuleId) (path : String) :
    List Import → Option (List Import × List GraphError)
  | [] => some ([], [])
  | i :: r =>
    match b.lookup.resolve? p i.specifier (some path) with
    | some file => do
      let target ← ModuleId.ofPath? b.lookup.root file
      let (imports, errors) ← b.resolveImports p id path r
      return ({ i with resolved := some target } :: imports, errors)
    | none => do
      let (imports, errors) ← b.resolveImports p id path r
      let target := if b.stubUnresolved then some (ModuleId.missing i.specifier (some id)) else none
      return ({ i with resolved := target.or i.resolved } :: imports,
        .unresolved i.specifier (some id) :: errors)

/-- What a task does: reads a module and looks up its imports. -/
def load (b : GraphBuilder) (p : Project) (id : ModuleId) :
    Except GraphError (Module × List GraphError) :=
  let path := id.toPath b.lookup.root
  match p.read? path with
  | none => .error (.read path (.notFound (Path.clean (Path.join p.base path))))
  | some source =>
    let m := Module.ofSource id path source
    match b.resolveImports p id path m.imports with
    | some (imports, errors) => .ok ({ m with imports }, errors)
    | none => .error .emptyModuleId

/-- The id of an entry. -/
def resolveEntry (b : GraphBuilder) (p : Project) (specifier : String) :
    Except GraphError ModuleId :=
  match b.lookup.resolve? p specifier none with
  | none => .error (.unresolved specifier none)
  | some file =>
    match ModuleId.ofPath? b.lookup.root file with
    | some id => .ok id
    | none => .error .emptyModuleId

/-- What is known at a moment of building. -/
structure State where
  /-- Ids that need no further task. -/
  seen : List ModuleId := []
  /-- Ids still to be looked at. -/
  pending : List ModuleId := []
  /-- Ids whose tasks are running, in the order of their start. -/
  running : List ModuleId := []
  /-- Modules in the order in which they were finished. -/
  modules : List Module := []
  errors : List GraphError := []
  loaded : Nat := 0
  reused : Nat := 0
  /-- How many tasks have come to their end. -/
  finished : Nat := 0

/-- Adds a stand-in unless its id is known. -/
def State.addStub (s : State) (id : ModuleId) (specifier : String) : State :=
  if s.seen.contains id then s
  else { s with seen := id :: s.seen, modules := s.modules ++ [Module.stub id specifier] }

/-- Looks up one entry specifier. -/
def startEntry (b : GraphBuilder) (p : Project) (s : State × List ModuleId)
    (specifier : String) : State × List ModuleId :=
  match b.resolveEntry p specifier with
  | .ok id => ({ s.1 with pending := s.1.pending ++ [id] }, s.2 ++ [id])
  | .error e =>
    if b.stubUnresolved then
      let id := ModuleId.missing specifier none
      let st := s.1.addStub id specifier
      ({ st with errors := st.errors ++ [e] }, s.2 ++ [id])
    else ({ s.1 with errors := s.1.errors ++ [e] }, s.2)

/-- Looks up the specifiers of an entry. -/
def declareEntry (b : GraphBuilder) (p : Project) (done : State × EntryMap ModuleId)
    (entry : String × List String) : State × EntryMap ModuleId :=
  let found := entry.2.foldl (b.startEntry p) (done.1, [])
  (found.1, done.2 ++ [(entry.1, found.2)])

/-- Looks up all entries. -/
def start (b : GraphBuilder) (p : Project) (entries : EntryMap String) :
    State × EntryMap ModuleId :=
  entries.foldl (b.declareEntry p) ({}, [])

/-- The modules of an earlier graph that are read again. -/
def reloadSet (previous : ModuleGraph) (touched : List ModuleId) : List ModuleId :=
  touched ++ touched.flatMap (fun id => (previous.dependents id).map (·.importer))
    ++ (previous.modules.filter fun m => m.imports.any fun i => i.resolved.all (·.isMissing)).map
      (·.id)

/-- The module that is taken over from an earlier graph. -/
def carried? (previous : Option ModuleGraph) (reload : List ModuleId) (id : ModuleId) :
    Option Module :=
  if reload.contains id then none else previous.bind (·.module? id)

/-- Takes up the import of a module that has just been loaded. -/
def State.follow (s : State) (i : Import) : State :=
  match i.resolved with
  | none => s
  | some target =>
    if target.isMissing then s.addStub target i.specifier
    else if s.seen.contains target then s
    else { s with pending := s.pending ++ [target] }

/-- What the end of a task adds. -/
def State.finish (s : State) : Except GraphError (Module × List GraphError) → State
  | .error e => { s with errors := s.errors ++ [e] }
  | .ok (m, errors) =>
    let s := m.imports.foldl State.follow { s with errors := s.errors ++ errors }
    { s with modules := s.modules ++ [m], loaded := s.loaded + 1 }

/-- Takes the entry at a place out of a list, counting round. -/
def pickAt (place : Nat) (ids : List ModuleId) : Option (ModuleId × List ModuleId) :=
  let i := place % ids.length
  (ids[i]?).map fun id => (id, ids.eraseIdx i)

/-- Takes over a module of an earlier graph in place of reading it. -/
def State.takeOver (s : State) (id : ModuleId) (m : Module) : State :=
  { s with
    seen := id :: s.seen
    pending := s.pending ++ m.dependencies.map (·.1)
    modules := s.modules ++ [m]
    reused := s.reused + 1 }

/-- Starts the task that reads a module. -/
def State.begin (s : State) (id : ModuleId) : State :=
  { s with seen := id :: s.seen, running := s.running ++ [id] }

/-- What is done next: the first pending id is looked at, or, when there is none, a running task
comes to its end. Nothing is done when no task is running either. -/
def step (b : GraphBuilder) (p : Project) (carry : ModuleId → Option Module)
    (schedule : Schedule) (s : State) : Option State :=
  match s.pending with
  | id :: rest =>
    let s := { s with pending := rest }
    if id.isMissing || s.seen.contains id then some s
    else
      match carry id with
      | some m => some (s.takeOver id m)
      | none => some (s.begin id)
  | [] =>
    (pickAt (schedule s.finished) s.running).map fun (id, others) =>
      { s with running := others, finished := s.finished + 1 }.finish (b.load p id)

/-- Works until nothing is left to do, or for `fuel` steps. -/
def run (b : GraphBuilder) (p : Project) (carry : ModuleId → Option Module)
    (schedule : Schedule) : (fuel : Nat) → State → State
  | 0, s => s
  | fuel + 1, s =>
    match b.step p carry schedule s with
    | some s => run b p carry schedule fuel s
    | none => s

/-- Nothing is left to do. -/
def State.isDone (s : State) : Bool := s.pending.isEmpty && s.running.isEmpty

/-- The failure of a build whose tasks ask for more and more modules without end. -/
def State.endless (s : State) : List GraphError :=
  if s.isDone then [] else [.task "no end of modules"]

/-- A number of steps that is enough below an absolute root. An id that is taken up is pending at
the start, that of a file, or named by the earlier graph; each is taken up once, and asks for no
more modules than the sources and the earlier graph have imports together, four forms of import
being looked for at each character of a source. -/
def stepBound (p : Project) (previous : Option ModuleGraph) (pending : Nat) : Nat :=
  let earlier := total (((previous.map (·.modules)).getD []).map (·.imports.length))
  let imports := total (p.files.files.map fun f => 4 * f.2.size) + earlier
  pending + (pending + p.files.files.length + earlier) * (imports + 2) + 1

/-- Builds a graph, taking over what it can of an earlier one. -/
def rebuildWith (b : GraphBuilder) (schedule : Schedule) (p : Project)
    (entries : EntryMap String) (previous : Option ModuleGraph) (touched : List ModuleId) :
    GraphBuild :=
  let reload := (previous.map (reloadSet · touched)).getD []
  let (s, entryIds) := b.start p entries
  let fuel := stepBound p previous s.pending.length
  let s := b.run p (carried? previous reload) schedule fuel s
  { graph := .ofModules entryIds s.modules
    errors := GraphError.sortByMessage (s.errors ++ s.endless)
    loaded := s.loaded, reused := s.reused }

/-- Builds a graph whose tasks finish in order, taking over what it can of an earlier one. -/
def rebuild (b : GraphBuilder) (p : Project) (entries : EntryMap String)
    (previous : Option ModuleGraph) (touched : List ModuleId) : GraphBuild :=
  b.rebuildWith .inOrder p entries previous touched

/-- Builds a graph from nothing. -/
def build (b : GraphBuilder) (p : Project) (entries : EntryMap String) : GraphBuild :=
  b.rebuild p entries none []

end GraphBuilder

end Bindery
