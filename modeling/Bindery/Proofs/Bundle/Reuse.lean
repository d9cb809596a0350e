import Bindery.Proofs.Bundle.Transform
import Bindery.Proofs.Graph.Change

/-!
# Outputs that are taken over

What a module becomes depends on its id, its source and whether it is a stand-in, and on nothing
else of the graph. So a pass gives the same outputs and the same failures in whatever order the
modules are finished, and also when it takes over outputs of an earlier graph for modules that the
differences between the graphs do not affect.

* `Transformer.runWith_spec` : outputs and failures of a graph, module by module.
* `Transformer.valid_of_unaffected` : what is not affected would be made the same again.
* `Transformer.runWith_unaffected` : a pass that takes over outputs agrees with a full one.
-/

namespace Bindery

/-! ## Setting outputs of different modules -/

namespace ModuleOutputs

variable {outputs outputs' : ModuleOutputs} {id : ModuleId} {o : ModuleOutput}

theorem insert_perm (h : id ∉ outputs.ids) : (outputs.insert id o).Perm ((id, o) :: outputs) := by
  induction outputs with
  | nil => exact .refl _
  | cons x r ih =>
    simp only [ids, List.map_cons, List.mem_cons, not_or] at h
    unfold insert
    rw [if_neg h.1]
    split
    · exact .refl _
    · exact ((ih h.2).cons x).trans (List.Perm.swap _ _ _)

/-- Setting outputs of different modules, of which none has an output yet, adds just these. -/
theorem foldl_insert_perm {done : ModuleOutputs} (h : (ids (outputs ++ done)).Nodup) :
    (done.foldl (fun o k => o.insert k.1 k.2) outputs).Perm (outputs ++ done) := by
  induction done generalizing outputs with
  | nil => simp
  | cons k r ih =>
    have hnew : k.1 ∉ outputs.ids := by
      rw [ids, List.map_append, List.nodup_append] at h
      exact fun hk => h.2.2 k.1 hk k.1 (List.mem_map_of_mem List.mem_cons_self) rfl
    have hperm : (outputs.insert k.1 k.2 ++ r).Perm (outputs ++ k :: r) :=
      ((insert_perm hnew).append_right r).trans List.perm_middle.symm
    rw [List.foldl_cons]
    exact (ih ((hperm.map _).nodup_iff.2 h)).trans hperm

theorem mem_of_get? (h : outputs.get? id = some o) : (id, o) ∈ outputs := by
  rcases List.lookup_eq_some_iff.1 h with ⟨before, after, rfl, -⟩
  exact List.mem_append_right _ List.mem_cons_self

/-- Looking up the ids of outputs gives the outputs. -/
theorem filterMap_get?_ids (hnodup : outputs.ids.Nodup) :
    outputs.ids.filterMap (fun id => (outputs.get? id).map (id, ·)) = outputs := by
  conv_rhs => rw [← List.filterMap_some (l := outputs)]
  rw [ids, List.filterMap_map]
  refine List.filterMap_congr ?_
  rintro ⟨id, o⟩ hmem
  simp only [Function.comp, get?_of_mem hnodup hmem, Option.map_some]

/-- Outputs in order are determined by which they are. -/
theorem eq_of_perm (h : outputs.Perm outputs') (hord : outputs.InOrder)
    (hord' : outputs'.InOrder) : outputs = outputs' := by
  refine h.eq_of_pairwise ?_ (List.pairwise_map.1 hord) (List.pairwise_map.1 hord')
  intro a b _ _ hab hba
  exact absurd (ModuleId.lt_trans hab hba) (ModuleId.lt_irrefl _)

end ModuleOutputs

namespace Transformer

variable {t : Transformer} {g older newer : ModuleGraph} {m m' : Module} {e : BuildError}
  {reuse : Option (ModuleOutputs × List ModuleId)}

/-! ## Failures -/

/-- The failures of the steps on a module. -/
inductive IsStepFailure (id : ModuleId) : BuildError → Prop where
  | unknown (ruleIndex : Nat) (engine : String) :
      IsStepFailure id (.unknownTransform id ruleIndex engine)
  | failed (engine detail : String) : IsStepFailure id (.transform id engine detail)
  | timedOut (engine : String) (timeoutMs : Nat) :
      IsStepFailure id (.timedOut id engine timeoutMs)

theorem isStepFailure_of_runChain {id : ModuleId} {ruleIndex : Nat} {chain : List EngineStep}
    {kind : ContentKind} {code : String} (h : t.runChain id ruleIndex chain kind code = .error e) :
    IsStepFailure id e := by
  induction chain generalizing kind code with
  | nil => simp [runChain] at h
  | cons s r ih =>
    unfold runChain at h
    split at h
    · exact Except.error.inj h ▸ .unknown _ _
    · split at h
      · exact ih h
      · exact Except.error.inj h ▸ .failed _ _
      · exact Except.error.inj h ▸ .timedOut _ _

/-- A module fails in one of its steps, or because a step has no engine. -/
theorem isStepFailure_of_transformModule (h : t.transformModule m = .error e) :
    IsStepFailure m.id e := by
  unfold transformModule at h
  split at h
  · simp at h
  · dsimp only at h
    split at h
    · next fault hfault =>
      obtain rfl := Except.error.inj h
      unfold Treatment.engineFault? at hfault
      split at hfault
      · rcases Option.map_eq_some_iff.1 hfault with ⟨s, -, rfl⟩
        exact .unknown _ _
      · simp at hfault
    · split at h
      · simp at h
      · split at h
        · simp at h
        · simp at h
      · exact isStepFailure_of_runChain h

/-- A failure names the module that failed. -/
theorem module?_of_transformModule (h : t.transformModule m = .error e) :
    e.module? = some m.id := by
  cases isStepFailure_of_transformModule h with
  | unknown => rw [BuildError.module?]
  | failed => rw [BuildError.module?]
  | timedOut => rw [BuildError.module?]

/-- The failure of a module, if it fails. -/
def failure? (t : Transformer) (m : Module) : Option BuildError :=
  match t.transformModule m with
  | .ok _ => none
  | .error e => some e

theorem failure?_eq_some_iff : t.failure? m = some e ↔ t.transformModule m = .error e := by
  unfold failure?
  cases t.transformModule m with
  | ok o => simp
  | error e' => simp

/-- What becomes of a module under its id, unless it fails. -/
def made? (t : Transformer) (m : Module) : Option (ModuleId × ModuleOutput) :=
  match t.transformModule m with
  | .ok o => some (m.id, o)
  | .error _ => none

/-- What becomes of the modules of a graph, in order of their ids. -/
def outputsOf (t : Transformer) (g : ModuleGraph) : ModuleOutputs := g.modules.filterMap t.made?

/-- The failures of the modules of a graph, in order of their ids. -/
def failuresOf (t : Transformer) (g : ModuleGraph) : List BuildError :=
  g.modules.filterMap t.failure?

/-- The failures of a graph name the modules that fail, each once and in order. -/
theorem map_module?_failuresOf (t : Transformer) (g : ModuleGraph) :
    (t.failuresOf g).map BuildError.module? =
      (g.modules.filter fun m => (t.failure? m).isSome).map fun m => some m.id := by
  rw [failuresOf]
  induction g.modules with
  | nil => rfl
  | cons m r ih =>
    cases hfailure : t.failure? m with
    | none => simp [hfailure, ih]
    | some e =>
      have hname := module?_of_transformModule (failure?_eq_some_iff.1 hfailure)
      simp [hfailure, hname, ih]

/-! ## The order of failures -/

theorem errorLe_trans (a b c : BuildError) (hab : errorLe a b = true) (hbc : errorLe b c = true) :
    errorLe a c = true := by
  unfold errorLe at *
  cases ha : a.module? with
  | none =>
    cases hc : c.module? with
    | none =>
      cases hb : b.module? with
      | none =>
        simp only [ha, hb, hc, decide_eq_true_eq] at hab hbc ⊢
        exact String.le_trans hab hbc
      | some y => simp [hb, hc] at hbc
    | some z => rfl
  | some x =>
    cases hb : b.module? with
    | none => simp [ha, hb] at hab
    | some y =>
      cases hc : c.module? with
      | none => simp [hb, hc] at hbc
      | some z =>
        simp only [ha, hb, hc] at hab hbc ⊢
        by_cases hxy : x = y
        · subst hxy
          by_cases hyz : x = z
          · simp only [hyz, if_true, decide_eq_true_eq] at hab hbc ⊢
            exact String.le_trans hab hbc
          · simpa only [hyz, if_false] using hbc
        · simp only [hxy, if_false, decide_eq_true_eq] at hab
          by_cases hyz : y = z
          · subst hyz
            simpa only [hxy, if_false, decide_eq_true_eq] using hab
          · simp only [hyz, if_false, decide_eq_true_eq] at hbc
            have hxz := ModuleId.lt_trans hab hbc
            rw [if_neg (ModuleId.ne_of_lt hxz)]
            exact decide_eq_true hxz

theorem errorLe_total (a b : BuildError) : (errorLe a b || errorLe b a) = true := by
  unfold errorLe
  cases ha : a.module? with
  | none =>
    cases hb : b.module? with
    | none => simpa using String.le_total a.message b.message
    | some y => rfl
  | some x =>
    cases hb : b.module? with
    | none => rfl
    | some y =>
      by_cases hxy : x = y
      · simpa [hxy] using String.le_total a.message b.message
      · by_cases hlt : x < y
        · simp [hxy, hlt]
        · have hgt := ModuleId.lt_of_not_lt hlt (Ne.symm hxy)
          simp [hxy, Ne.symm hxy, hgt]

theorem errorLe_of_lt {a b : BuildError} {x y : ModuleId} (ha : a.module? = some x)
    (hb : b.module? = some y) (h : x < y) : errorLe a b = true := by
  unfold errorLe
  rw [ha, hb]
  simp [ModuleId.ne_of_lt h, h]

theorem not_lt_of_errorLe {a b : BuildError} {x y : ModuleId} (ha : a.module? = some x)
    (hb : b.module? = some y) (h : errorLe a b = true) : ¬y < x := by
  intro hlt
  unfold errorLe at h
  rw [ha, hb] at h
  simp only [Ne.symm (ModuleId.ne_of_lt hlt), if_false, decide_eq_true_eq] at h
  exact ModuleId.lt_irrefl _ (ModuleId.lt_trans h hlt)

theorem pairwise_failuresOf (t : Transformer) (g : ModuleGraph) :
    (t.failuresOf g).Pairwise fun e e' => errorLe e e' = true := by
  refine List.pairwise_filterMap.2 (g.inOrder.imp ?_)
  intro m m' hlt e he e' he'
  exact errorLe_of_lt (module?_of_transformModule (failure?_eq_some_iff.1 he))
    (module?_of_transformModule (failure?_eq_some_iff.1 he')) hlt

/-- Sorting brings the failures of a graph into the order of its modules. -/
theorem mergeSort_of_perm {errors : List BuildError} (h : errors.Perm (t.failuresOf g)) :
    errors.mergeSort errorLe = t.failuresOf g := by
  refine ((List.mergeSort_perm _ _).trans h).eq_of_pairwise ?_
    (List.pairwise_mergeSort errorLe_trans errorLe_total errors) (pairwise_failuresOf t g)
  intro e e' he he' hle hle'
  rcases List.mem_filterMap.1 (h.mem_iff.1 (List.mem_mergeSort.1 he)) with ⟨m, hm, hfailure⟩
  rcases List.mem_filterMap.1 he' with ⟨m', hm', hfailure'⟩
  have hname := module?_of_transformModule (failure?_eq_some_iff.1 hfailure)
  have hname' := module?_of_transformModule (failure?_eq_some_iff.1 hfailure')
  -- neither module comes before the other one, so they are the same
  have hid : m.id = m'.id := by
    by_contra hne
    exact not_lt_of_errorLe hname' hname hle'
      (ModuleId.lt_of_not_lt (not_lt_of_errorLe hname hname' hle) hne)
  obtain rfl := ModuleGraph.eq_of_id_eq hm hm' hid
  exact Option.some.inj (hfailure.symm.trans hfailure')

/-! ## Passes -/

/-- The outputs among some outcomes. -/
def succeeded (done : List (ModuleId × Except BuildError ModuleOutput)) : ModuleOutputs :=
  done.filterMap fun d => d.2.toOption.map (d.1, ·)

/-- The failures among some outcomes. -/
def failed (done : List (ModuleId × Except BuildError ModuleOutput)) : List BuildError :=
  done.filterMap fun d =>
    match d.2 with
    | .ok _ => none
    | .error e => some e

/-- Collecting outcomes sets the outputs among them and keeps the failures. -/
theorem foldl_collect_eq (done : List (ModuleId × Except BuildError ModuleOutput))
    (batch : TransformBatch) :
    (done.foldl collect batch).outputs =
        (succeeded done).foldl (fun o k => o.insert k.1 k.2) batch.outputs ∧
      (done.foldl collect batch).errors = batch.errors ++ failed done := by
  induction done generalizing batch with
  | nil => exact ⟨rfl, (List.append_nil _).symm⟩
  | cons d r ih =>
    rcases ih (collect batch d) with ⟨houtputs, herrors⟩
    rw [List.foldl_cons, houtputs, herrors]
    rcases d with ⟨id, outcome⟩
    cases outcome with
    | ok o => exact ⟨rfl, rfl⟩
    | error e => exact ⟨rfl, List.append_assoc _ _ _⟩

theorem succeeded_outcomes (work : List Module) :
    succeeded (t.outcomes work) = work.filterMap t.made? := by
  rw [succeeded, outcomes, List.filterMap_map]
  congr 1
  funext m
  simp only [Function.comp, made?]
  cases t.transformModule m with
  | ok o => rfl
  | error e => rfl

theorem failed_outcomes (work : List Module) :
    failed (t.outcomes work) = work.filterMap t.failure? := by
  rw [failed, outcomes, List.filterMap_map]
  rfl

/-- What is taken over for a module of the graph is what the module would be made into. -/
def Valid (t : Transformer) (g : ModuleGraph) (reuse : Option (ModuleOutputs × List ModuleId)) :
    Prop :=
  ∀ m ∈ g.modules, ∀ o, carried? reuse m.id = some o → t.transformModule m = .ok o

theorem valid_none (t : Transformer) (g : ModuleGraph) : t.Valid g none := by
  intro m _ o h
  simp [carried?] at h

theorem made?_eq_some {x : ModuleId × ModuleOutput} :
    t.made? m = some x ↔ m.id = x.1 ∧ t.transformModule m = .ok x.2 := by
  unfold made?
  cases t.transformModule m with
  | ok o => simp [Prod.ext_iff]
  | error e => simp

/-- Ids of what the modules of a list become are ids of these modules, in the same order. -/
theorem ids_filterMap_made?_sublist (t : Transformer) (modules : List Module) :
    (ModuleOutputs.ids (modules.filterMap t.made?)).Sublist (modules.map (·.id)) := by
  induction modules with
  | nil => exact List.Sublist.refl _
  | cons m r ih =>
    rw [List.filterMap_cons]
    split
    · exact ih.cons _
    · next x hx =>
      rw [ModuleOutputs.ids, List.map_cons, ← (made?_eq_some.1 hx).1]
      exact ih.cons_cons _

theorem inOrder_outputsOf (t : Transformer) (g : ModuleGraph) : (t.outputsOf g).InOrder :=
  (List.pairwise_map.2 g.inOrder).sublist (ids_filterMap_made?_sublist t g.modules)

/-- The modules of which nothing is taken over, in the order in which they are finished, and the
others make up the graph. -/
theorem finished_perm {finish : List Module → List Module}
    (hfinish : ∀ work, (finish work).Perm work) (g : ModuleGraph)
    (reuse : Option (ModuleOutputs × List ModuleId)) :
    (g.modules.filter (fun m => !(carried? reuse m.id).isNone) ++
      finish (workOf g reuse)).Perm g.modules :=
  ((hfinish _).append_left _).trans
    (List.perm_append_comm.trans (List.filter_append_perm _ _))

/-- What is validly taken over is what these modules would be made into. -/
theorem kept_eq (hvalid : t.Valid g reuse) :
    keptOutputs g reuse =
      (g.modules.filter fun m => !(carried? reuse m.id).isNone).filterMap t.made? := by
  rw [keptOutputs, List.filterMap_filter]
  refine List.filterMap_congr ?_
  intro m hm
  cases hcarried : carried? reuse m.id with
  | none => rfl
  | some o => exact (made?_eq_some.2 ⟨rfl, hvalid m hm o hcarried⟩).symm

/-- A module of which something is validly taken over would not fail. -/
theorem failures_kept (hvalid : t.Valid g reuse) :
    (g.modules.filter fun m => !(carried? reuse m.id).isNone).filterMap t.failure? = [] := by
  refine List.filterMap_eq_nil_iff.2 ?_
  intro m hm
  rcases List.mem_filter.1 hm with ⟨hmem, hcarried⟩
  cases hc : carried? reuse m.id with
  | none => simp [hc] at hcarried
  | some o => simp [failure?, hvalid m hmem o hc]

/-- Outputs and failures of a graph, whatever is taken over as long as it is valid, and in whatever
order the modules are finished. -/
theorem runWith_spec {finish : List Module → List Module}
    (hfinish : ∀ work, (finish work).Perm work) (hvalid : t.Valid g reuse) :
    (t.runWith finish g reuse).outputs = t.outputsOf g ∧
      (t.runWith finish g reuse).errors = t.failuresOf g := by
  have hsplit := finished_perm hfinish g reuse
  obtain ⟨houtputs, herrors⟩ := runWith_eq finish t g reuse
  obtain ⟨hset, hfailed⟩ :=
    foldl_collect_eq (t.outcomes (finish (workOf g reuse))) (startOfPass g reuse)
  constructor
  · have hmade : (keptOutputs g reuse ++ succeeded (t.outcomes (finish (workOf g reuse)))).Perm
        (t.outputsOf g) := by
      rw [succeeded_outcomes, kept_eq hvalid, ← List.filterMap_append]
      exact hsplit.filterMap _
    have hnodup : (ModuleOutputs.ids ([] ++ (keptOutputs g reuse ++
        succeeded (t.outcomes (finish (workOf g reuse)))))).Nodup :=
      (hmade.map _).nodup_iff.2 ((inOrder_outputsOf t g).imp ModuleId.ne_of_lt)
    rw [houtputs, hset, startOfPass, ← List.foldl_append]
    exact ModuleOutputs.eq_of_perm ((ModuleOutputs.foldl_insert_perm hnodup).trans hmade)
      (ModuleOutputs.inOrder_foldl_insert ModuleOutputs.inOrder_nil) (inOrder_outputsOf t g)
  · have hall := hsplit.filterMap t.failure?
    rw [List.filterMap_append, failures_kept hvalid, List.nil_append] at hall
    rw [herrors, hfailed, startOfPass, List.nil_append, failed_outcomes]
    exact mergeSort_of_perm hall

/-! ## Taking over what is not affected -/

/-- What becomes of a module depends on its id, kind and source, and on whether it is a
stand-in. -/
theorem transformModule_congr (hid : m.id = m'.id) (hkind : m.kind = m'.kind)
    (hsource : m.source = m'.source) (hstub : m.isStub = m'.isStub) :
    t.transformModule m = t.transformModule m' := by
  cases m
  cases m'
  simp only at hid hkind hsource hstub
  subst hid hkind hsource hstub
  rfl

end Transformer

/-- A source under an ordinary id, whatever its imports were found to mean. -/
def Module.IsSource (m : Module) : Prop :=
  m.id.isMissing = false ∧
    ∃ path source imports, m = { Module.ofSource m.id path source with imports := imports }

/-- A stand-in under a reserved id. -/
def Module.IsStandIn (m : Module) : Prop :=
  m.id.isMissing = true ∧ ∃ specifier, m = Module.stub m.id specifier

/-- A graph of sources under ordinary ids and stand-ins under reserved ones. -/
def ModuleGraph.Genuine (g : ModuleGraph) : Prop := ∀ m ∈ g.modules, m.IsSource ∨ m.IsStandIn

/-- Modules with the same digest in two graphs have the same source. -/
def ModuleGraph.Faithful (older newer : ModuleGraph) : Prop :=
  ∀ old ∈ older.modules, ∀ m ∈ newer.modules, old.hash = m.hash → old.source = m.source

namespace Transformer

variable {t : Transformer} {g older newer : ModuleGraph} {m m' : Module}

/-- Whether a module is a stand-in shows in its id, and so does its kind. -/
theorem kind_of_genuine (h : m.IsSource ∨ m.IsStandIn) :
    m.isStub = m.id.isMissing ∧
      m.kind = if m.id.isMissing then .script else SourceKind.ofExtension m.id.extension? := by
  rcases h with ⟨hid, path, source, imports, hm⟩ | ⟨hid, specifier, hm⟩
  · have hstub : m.isStub = false := by rw [hm]; rfl
    have hkind : m.kind = SourceKind.ofExtension m.id.extension? := by
      conv_lhs => rw [hm]
      rfl
    simp [hstub, hkind, hid]
  · have hstub : m.isStub = true := by rw [hm]; rfl
    have hkind : m.kind = .script := by rw [hm]; rfl
    simp [hstub, hkind, hid]

/-- In such graphs modules with the same id and the same source become the same. -/
theorem transformModule_of_genuine (hm : m.IsSource ∨ m.IsStandIn) (hm' : m'.IsSource ∨ m'.IsStandIn)
    (hid : m.id = m'.id) (hsource : m.source = m'.source) :
    t.transformModule m = t.transformModule m' := by
  obtain ⟨hstub, hkind⟩ := kind_of_genuine hm
  obtain ⟨hstub', hkind'⟩ := kind_of_genuine hm'
  refine transformModule_congr hid ?_ hsource ?_
  · rw [hkind, hkind', hid]
  · rw [hstub, hstub', hid]

/-- An earlier pass over a graph leaves valid outputs for all modules that the differences to the
newer graph do not affect. -/
theorem valid_of_unaffected (holder : older.Genuine) (hnewer : newer.Genuine)
    (hfaithful : older.Faithful newer) :
    t.Valid newer (some (t.outputsOf older, (ChangeSet.between older newer).affected)) := by
  intro m hm o hcarried
  have hunaffected : m.id ∉ (ChangeSet.between older newer).affected ∧
      (t.outputsOf older).get? m.id = some o := by
    simpa [carried?] using hcarried
  -- the output was made of a module with the same id
  rcases List.mem_filterMap.1 (ModuleOutputs.mem_of_get? hunaffected.2) with ⟨old, hold, hmade⟩
  obtain ⟨hid, hdone⟩ := made?_eq_some.1 hmade
  have hchanged : m.id ∉ (ChangeSet.between older newer).modified := fun hmodified =>
    hunaffected.1 (ModuleGraph.subset_ancestors _ (List.mem_append_left _ hmodified))
  have hhash : old.hash = m.hash := by
    by_contra hne
    exact hchanged (ChangeSet.mem_modified_between.2 ⟨old, m,
      ModuleGraph.module?_eq_some_iff.2 ⟨hold, hid⟩,
      ModuleGraph.module?_eq_some_iff.2 ⟨hm, rfl⟩, hne⟩)
  have hsource := hfaithful old hold m hm hhash
  rw [← transformModule_of_genuine (holder old hold) (hnewer m hm) hid hsource]
  exact hdone

/-- When there is an output of every module and none is invalidated, all of them are taken over. -/
theorem runIncremental_eq {outputs : ModuleOutputs} (t : Transformer) (h : outputs.ids = g.ids) :
    (t.runIncremental g (some (outputs, []))).outputs = outputs ∧
      (t.runIncremental g (some (outputs, []))).errors = [] := by
  have hord := ModuleOutputs.inOrder_of_ids_eq h
  have hcarried : ∀ id, carried? (some (outputs, [])) id = outputs.get? id := fun id => rfl
  have hkept : keptOutputs g (some (outputs, [])) = outputs := by
    have hids : g.ids.filterMap (fun id => (outputs.get? id).map (id, ·)) = outputs :=
      h ▸ ModuleOutputs.filterMap_get?_ids (hord.imp ModuleId.ne_of_lt)
    rwa [ModuleGraph.ids, List.filterMap_map] at hids
  have hwork : workOf g (some (outputs, [])) = [] := by
    refine List.filter_eq_nil_iff.2 ?_
    intro m hm
    have hid : m.id ∈ outputs.ids := h ▸ List.mem_map_of_mem hm
    obtain ⟨o, ho⟩ := Option.isSome_iff_exists.1 (ModuleOutputs.isSome_get? hid)
    simp [hcarried, ho]
  have hnodup : (ModuleOutputs.ids ([] ++ outputs)).Nodup := hord.imp ModuleId.ne_of_lt
  obtain ⟨houtputs, herrors⟩ := runWith_eq id t g (some (outputs, []))
  rw [runIncremental, houtputs, herrors]
  simp only [startOfPass, hkept, hwork, id, outcomes, List.map_nil, List.foldl_nil,
    List.mergeSort_nil, and_true]
  exact ModuleOutputs.eq_of_perm (ModuleOutputs.foldl_insert_perm hnodup)
    (ModuleOutputs.inOrder_foldl_insert ModuleOutputs.inOrder_nil) hord

/-- A pass over a graph that takes over the outputs of an earlier one for all modules that are not
affected gives what a full pass gives, whatever the orders in which the modules of the three passes
are finished. It does not matter whether modules failed in the earlier pass: they have no output to
take over. Each failing module is named once, in order. -/
theorem runWith_unaffected {finish₀ finish finish' : List Module → List Module}
    (hfinish₀ : ∀ work, (finish₀ work).Perm work) (hfinish : ∀ work, (finish work).Perm work)
    (hfinish' : ∀ work, (finish' work).Perm work) (holder : older.Genuine)
    (hnewer : newer.Genuine) (hfaithful : older.Faithful newer) :
    (t.runWith finish newer (some ((t.runWith finish₀ older none).outputs,
          (ChangeSet.between older newer).affected))).outputs =
        (t.runWith finish' newer none).outputs ∧
      (t.runWith finish newer (some ((t.runWith finish₀ older none).outputs,
          (ChangeSet.between older newer).affected))).errors =
        (t.runWith finish' newer none).errors ∧
      (t.runWith finish' newer none).errors = newer.modules.filterMap t.failure? ∧
      (t.runWith finish' newer none).errors.map BuildError.module? =
        (newer.modules.filter fun m => (t.failure? m).isSome).map fun m => some m.id := by
  obtain ⟨hbefore, -⟩ := runWith_spec hfinish₀ (valid_none t older)
  obtain ⟨houtputs, herrors⟩ := runWith_spec hfinish' (valid_none t newer)
  obtain ⟨houtputs', herrors'⟩ :=
    runWith_spec hfinish (valid_of_unaffected (t := t) holder hnewer hfaithful)
  rw [hbefore, houtputs, herrors, houtputs', herrors']
  exact ⟨rfl, rfl, rfl, map_module?_failuresOf t newer⟩

/-! ## An edited page -/

/-- Scripts are checked: one that says "boom" is refused. -/
def checking : Transformer :=
  { registry :=
      [{ name := "check"
         apply := fun input =>
          if input.code = "boom" then .failed (.failed input.code)
          else .done { code := input.code ++ ";", kind := input.kind } }]
    rules := [{ test := .ofLiteral "js", chain := [{ engine := "check" }] }]
    assets := []
    timeoutMs := 1000
    mode := .development }

/-- A page one of whose modules is not there. -/
def page : ModuleGraph :=
  .ofModules [("main", [⟨"a.js"⟩])]
    [.ofSource ⟨"a.js"⟩ "/app/a.js" "0".toUTF8, .stub ⟨"missing:b"⟩ "./b"]

/-- The page when the missing module has been written, though not well. -/
def edited : ModuleGraph :=
  .ofModules [("main", [⟨"a.js"⟩])]
    [.ofSource ⟨"a.js"⟩ "/app/a.js" "0".toUTF8, .ofSource ⟨"b.js"⟩ "/app/b.js" "boom".toUTF8]

theorem isSource_ofSource {id : ModuleId} {path : String} {source : ByteArray}
    (h : id.isMissing = false) : (Module.ofSource id path source).IsSource :=
  ⟨h, path, source, _, rfl⟩

theorem genuine_page : page.Genuine := by
  intro m hm
  have hmem := (ModuleGraph.modules_ofModules_perm _ (by decide)).mem_iff.1 hm
  simp only [List.mem_cons, List.not_mem_nil, or_false] at hmem
  rcases hmem with rfl | rfl
  · exact .inl (isSource_ofSource (by decide))
  · exact .inr ⟨by decide, "./b", rfl⟩

theorem genuine_edited : edited.Genuine := by
  intro m hm
  have hmem := (ModuleGraph.modules_ofModules_perm _ (by decide)).mem_iff.1 hm
  simp only [List.mem_cons, List.not_mem_nil, or_false] at hmem
  rcases hmem with rfl | rfl
  · exact .inl (isSource_ofSource (by decide))
  · exact .inl (isSource_ofSource (by decide))

theorem faithful_edited : page.Faithful edited := by
  -- sources are compared first: digests are slow to evaluate
  have hcompared : ∀ old ∈ page.modules, ∀ m ∈ edited.modules,
      old.source = m.source ∨ old.hash ≠ m.hash := by decide +kernel
  intro old hold m hm hhash
  exact (hcompared old hold m hm).resolve_right (not_not_intro hhash)

/-- The pass over the edited page takes over the output of one module and reports one failure, just
as the full pass does that finishes its modules the other way round. -/
theorem runWith_unaffected_edited :
    page.Genuine ∧ edited.Genuine ∧ page.Faithful edited ∧
      (checking.runWith id edited (some ((checking.runWith id page none).outputs,
          (ChangeSet.between page edited).affected))).outputs =
        (checking.runWith List.reverse edited none).outputs ∧
      (checking.runWith id edited (some ((checking.runWith id page none).outputs,
          (ChangeSet.between page edited).affected))).reused = 1 ∧
      (checking.runWith id edited (some ((checking.runWith id page none).outputs,
          (ChangeSet.between page edited).affected))).errors.map BuildError.module? =
        [some ⟨"b.js"⟩] := by
  have hid : ∀ work : List Module, (id work).Perm work := fun work => List.Perm.refl work
  obtain ⟨houtputs, herrors, -, hnames⟩ := runWith_unaffected (t := checking) hid hid
    List.reverse_perm genuine_page genuine_edited faithful_edited
  refine ⟨genuine_page, genuine_edited, faithful_edited, houtputs, by decide +kernel, ?_⟩
  rw [herrors, hnames]
  decide

end Transformer

end Bindery
