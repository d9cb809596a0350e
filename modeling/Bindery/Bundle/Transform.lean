import Bindery.Bundle.FileName
import Bindery.Bundle.Treatment
import Bindery.Graph.Basic
import Bindery.Profile.Basic

/-!
# Transforming modules

Every module of a graph is turned into what it contributes to the output: code, or a copy of its
source. Modules are worked on at the same time and each can fail; the outcome holds all outputs and
all failures, in the order of module ids, whichever came first.
-/

namespace Bindery

/-- What a module became. -/
inductive ModuleOutput where
  | code (kind : ContentKind) (text : String)
  /-- A copy of the source under a name of its own. -/
  | asset (fileName : String) (bytes : ByteArray)

def ModuleOutput.isAsset : ModuleOutput → Bool
  | .asset _ _ => true
  | .code _ _ => false

/-- Outputs by module, in the order of ids; an id occurs once. -/
abbrev ModuleOutputs := List (ModuleId × ModuleOutput)

namespace ModuleOutputs

def get? (outputs : ModuleOutputs) (id : ModuleId) : Option ModuleOutput := outputs.lookup id

/-- Sets the output of a module. -/
def insert (id : ModuleId) (o : ModuleOutput) : ModuleOutputs → ModuleOutputs
  | [] => [(id, o)]
  | (k, x) :: r =>
    if id = k then (id, o) :: r
    else if id < k then (id, o) :: (k, x) :: r
    else (k, x) :: insert id o r

/-- The modules that became copies. -/
def assetIds (outputs : ModuleOutputs) : IdSet :=
  (outputs.filter (·.2.isAsset)).map (·.1)

end ModuleOutputs

/-- How modules are transformed. -/
structure Transformer where
  registry : EngineRegistry
  rules : List Rule
  assets : List AssetRule
  /-- The limit for engines without one of their own, in milliseconds. -/
  timeoutMs : Nat
  mode : Mode

/-- The outcome of transforming a graph. -/
structure TransformBatch where
  outputs : ModuleOutputs
  /-- In the order of module ids. -/
  errors : List BuildError
  transformed : Nat
  reused : Nat

namespace Transformer

def ofProfile (p : Profile) (registry : EngineRegistry) : Transformer :=
  { registry, rules := p.rules, assets := p.assets, timeoutMs := p.transformTimeoutMs
    mode := p.mode }

/-- What code is before any engine has seen it. -/
def initialKind : SourceKind → ContentKind
  | .style => .style
  | _ => .script

/-- The copy of a module under a name made from a template. -/
def copyOf (m : Module) (template : String) : ModuleOutput :=
  .asset (FileName.ofAsset template m.id m.source) m.source

/-- Runs the engines of a chain one after the other. Each gets what the one before made; the first
that fails ends the chain. -/
def runChain (t : Transformer) (id : ModuleId) (ruleIndex : Nat) :
    List EngineStep → ContentKind → String → Except BuildError ModuleOutput
  | [], kind, code => .ok (.code kind code)
  | s :: r, kind, code =>
    match t.registry.get? s.engine with
    | none => .error (.unknownTransform id ruleIndex s.engine)
    | some engine =>
      match engine.apply { module := id, code, kind, options := s.options, mode := t.mode } with
      | .done out => t.runChain id ruleIndex r out.kind out.code
      | .failed e => .error (.transform id s.engine e.message)
      | .hangs => .error (.timedOut id s.engine (engine.timeoutMs.getD t.timeoutMs))

/-- What a module becomes. -/
def transformModule (t : Transformer) (m : Module) : Except BuildError ModuleOutput :=
  if m.isStub then .ok (.code .script m.text)
  else
    let treatment := Treatment.classify m.id.text t.rules t.assets
    match treatment.engineFault? m.id t.registry with
    | some e => .error e
    | none =>
      match treatment with
      | .asset _ filename => .ok (copyOf m filename)
      | .passThrough =>
        if m.kind = .resource then .ok (copyOf m AssetRule.defaultFilename)
        else .ok (.code (initialKind m.kind) m.text)
      | .transform i chain => t.runChain m.id i chain (initialKind m.kind) m.text

/-- The order of errors: by module, those without one first, then by message. -/
def errorLe (a b : BuildError) : Bool :=
  match a.module?, b.module? with
  | none, none => a.message ≤ b.message
  | none, some _ => true
  | some _, none => false
  | some x, some y => if x = y then a.message ≤ b.message else x < y

/-- Adds the outcome for one module. -/
def collect (batch : TransformBatch) (done : ModuleId × Except BuildError ModuleOutput) :
    TransformBatch :=
  match done.2 with
  | .ok o =>
    { batch with
      outputs := batch.outputs.insert done.1 o
      transformed := batch.transformed + 1 }
  | .error e => { batch with errors := batch.errors ++ [e] }

/-- The output that is taken over from an earlier pass. -/
def carried? (reuse : Option (ModuleOutputs × List ModuleId)) (id : ModuleId) :
    Option ModuleOutput :=
  reuse.bind fun (previous, invalidated) =>
    if invalidated.contains id then none else previous.get? id

/-- Transforms the modules of a graph, taking over outputs of modules that are not invalidated.
`finish` puts the modules to work on into the order in which they are finished. -/
def runWith (finish : List Module → List Module) (t : Transformer) (g : ModuleGraph)
    (reuse : Option (ModuleOutputs × List ModuleId)) : TransformBatch :=
  let kept := g.modules.filterMap fun m => (carried? reuse m.id).map (m.id, ·)
  let work := g.modules.filter fun m => (carried? reuse m.id).isNone
  let start : TransformBatch :=
    { outputs := kept.foldl (fun o k => o.insert k.1 k.2) [], errors := [], transformed := 0
      reused := kept.length }
  let batch := ((finish work).map fun m => (m.id, t.transformModule m)).foldl collect start
  { batch with errors := batch.errors.mergeSort errorLe }

/-- Transforms a graph, taking over outputs of modules that are not invalidated. -/
def runIncremental (t : Transformer) (g : ModuleGraph)
    (reuse : Option (ModuleOutputs × List ModuleId)) : TransformBatch := t.runWith id g reuse

/-- Transforms every module of a graph. -/
def run (t : Transformer) (g : ModuleGraph) : TransformBatch := t.runIncremental g none

end Transformer

end Bindery
