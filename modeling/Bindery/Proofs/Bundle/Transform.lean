import Bindery.Bundle.Build
import Bindery.Proofs.Graph.Snapshot

/-!
# The outputs of a graph

Outputs are kept in order of ids, and setting one changes no other. When no module of a graph fails
to be transformed there is one output for each of them, in the same order, wherever it came from
and in whatever order the modules were finished. Making scripts smaller changes nothing else.

* `ModuleOutputs.get?_insert` : setting an output.
* `Transformer.ids_runWith` : the outputs of a graph without failures are those of its modules.
* `Bundler.minifyStage_spec` : making scripts smaller keeps the ids, and all outputs that are not
  scripts.
-/

namespace Bindery

namespace ModuleOutputs

variable {outputs : ModuleOutputs} {id x : ModuleId} {o : ModuleOutput}

/-- The modules that have an output. -/
def ids (outputs : ModuleOutputs) : List ModuleId := outputs.map (·.1)

/-- The outputs are in order of their ids, and an id occurs once. -/
def InOrder (outputs : ModuleOutputs) : Prop := outputs.ids.Pairwise (· < ·)

theorem isSome_get? (h : id ∈ outputs.ids) : (outputs.get? id).isSome = true := by
  rcases List.mem_map.1 h with ⟨x, hx, rfl⟩
  exact List.lookup_isSome_iff.2 ⟨x, hx, by simp⟩

theorem get?_of_mem (hnodup : outputs.ids.Nodup) (h : (id, o) ∈ outputs) :
    outputs.get? id = some o := by
  rcases List.append_of_mem h with ⟨before, after, rfl⟩
  refine List.lookup_eq_some_iff.2 ⟨before, after, rfl, ?_⟩
  intro x hx
  rw [ids, List.map_append] at hnodup
  have hdisjoint := List.disjoint_of_nodup_append hnodup
  rw [bne_iff_ne]
  rintro rfl
  exact hdisjoint (List.mem_map_of_mem hx) List.mem_cons_self

/-- The modules that are listed as copies became copies. -/
theorem exists_asset_of_mem_assetIds (hnodup : outputs.ids.Nodup) (h : id ∈ outputs.assetIds) :
    ∃ file bytes, outputs.get? id = some (.asset file bytes) := by
  rcases List.mem_map.1 h with ⟨⟨_, output⟩, hmem, rfl⟩
  rcases List.mem_filter.1 hmem with ⟨hin, hasset⟩
  cases output with
  | asset file bytes => exact ⟨file, bytes, get?_of_mem hnodup hin⟩
  | code kind text => simp [ModuleOutput.isAsset] at hasset

theorem get?_cons (k : ModuleId) (o : ModuleOutput) (outputs : ModuleOutputs) (x : ModuleId) :
    get? ((k, o) :: outputs) x = if x = k then some o else get? outputs x := by
  by_cases hx : x = k
  · simp [get?, hx]
  · simp [get?, List.lookup_cons, hx, beq_eq_false_iff_ne.2 hx]

/-- Setting an output changes no other one. -/
theorem get?_insert (id : ModuleId) (o : ModuleOutput) (outputs : ModuleOutputs) (x : ModuleId) :
    (outputs.insert id o).get? x = if x = id then some o else outputs.get? x := by
  induction outputs with
  | nil => exact get?_cons id o [] x
  | cons y r ih =>
    unfold insert
    split
    · next heq =>
      rw [get?_cons, get?_cons, ← heq]
      split
      · rfl
      · rfl
    · next hne =>
      split
      · exact get?_cons id o _ x
      · rw [get?_cons, get?_cons, ih]
        by_cases hx : x = id
        · rw [if_pos hx, if_pos hx, if_neg (hx ▸ hne)]
        · rw [if_neg hx, if_neg hx]

theorem mem_ids_insert : x ∈ (outputs.insert id o).ids ↔ x = id ∨ x ∈ outputs.ids := by
  induction outputs with
  | nil => simp [insert, ids]
  | cons y r ih =>
    simp only [ids] at ih
    simp only [insert, ids]
    split
    · next heq => simp [heq]
    · split
      · simp
      · simp only [List.map_cons, List.mem_cons, ih]
        tauto

/-- The outputs of the modules of a graph are in order. -/
theorem inOrder_of_ids_eq {g : ModuleGraph} (h : outputs.ids = g.ids) : InOrder outputs := by
  rw [InOrder, h]
  exact List.pairwise_map.2 g.inOrder

theorem inOrder_nil : InOrder [] := List.Pairwise.nil

theorem inOrder_insert (h : InOrder outputs) : InOrder (outputs.insert id o) := by
  induction outputs with
  | nil => exact List.pairwise_singleton _ _
  | cons y r ih =>
    rcases List.pairwise_cons.1 h with ⟨hy, hr⟩
    unfold insert
    split
    · next heq => exact List.pairwise_cons.2 ⟨fun a ha => heq ▸ hy a ha, hr⟩
    · next hne =>
      split
      · next hlt =>
        refine List.pairwise_cons.2 ⟨?_, h⟩
        intro a ha
        rcases List.mem_cons.1 ha with rfl | ha
        · exact hlt
        · exact ModuleId.lt_trans hlt (hy a ha)
      · next hnlt =>
        refine List.pairwise_cons.2 ⟨?_, ih hr⟩
        intro a ha
        rcases mem_ids_insert.1 ha with rfl | ha
        · exact ModuleId.lt_of_not_lt hnlt (Ne.symm hne)
        · exact hy a ha

theorem mem_ids_foldl_insert {done : List (ModuleId × ModuleOutput)} :
    x ∈ ids (done.foldl (fun o k => o.insert k.1 k.2) outputs) ↔
      x ∈ outputs.ids ∨ x ∈ done.map (·.1) := by
  induction done generalizing outputs with
  | nil => simp
  | cons k r ih =>
    rw [List.foldl_cons, ih, mem_ids_insert, List.map_cons, List.mem_cons]
    tauto

theorem inOrder_foldl_insert {done : List (ModuleId × ModuleOutput)} (h : InOrder outputs) :
    InOrder (done.foldl (fun o k => o.insert k.1 k.2) outputs) := by
  induction done generalizing outputs with
  | nil => exact h
  | cons k r ih => exact ih (inOrder_insert h)

end ModuleOutputs

/-- Setting an output that is there keeps the ids. -/
theorem ModuleOutputs.ids_insert_of_mem {outputs : ModuleOutputs} {id : ModuleId}
    {o : ModuleOutput} (h : outputs.InOrder) (hid : id ∈ outputs.ids) :
    (outputs.insert id o).ids = outputs.ids := by
  refine ModuleId.eq_of_mem_iff (inOrder_insert h) h ?_
  intro x
  rw [mem_ids_insert]
  constructor
  · rintro (rfl | hx)
    · exact hid
    · exact hx
  · exact .inr

/-! ## Transforming a graph -/

namespace Transformer

variable {batch : TransformBatch} {done : List (ModuleId × Except BuildError ModuleOutput)}

/-- A failure that was collected is not forgotten. -/
theorem errors_subset_foldl_collect (done : List (ModuleId × Except BuildError ModuleOutput))
    (batch : TransformBatch) : batch.errors ⊆ (done.foldl collect batch).errors := by
  induction done generalizing batch with
  | nil => exact List.Subset.refl _
  | cons d r ih =>
    refine List.Subset.trans ?_ (ih (collect batch d))
    unfold collect
    split
    · exact List.Subset.refl _
    · exact List.subset_append_left _ _

/-- Collecting outcomes without a failure sets one output for each of them. -/
theorem foldl_collect_spec (h : batch.outputs.InOrder)
    (hok : (done.foldl collect batch).errors = []) :
    (done.foldl collect batch).outputs.InOrder ∧
      ∀ id, id ∈ (done.foldl collect batch).outputs.ids ↔
        id ∈ batch.outputs.ids ∨ id ∈ done.map (·.1) := by
  induction done generalizing batch with
  | nil => exact ⟨h, by simp⟩
  | cons d r ih =>
    rcases d with ⟨x, outcome⟩
    cases outcome with
    | ok o =>
      have hstep : (collect batch (x, .ok o)).outputs = batch.outputs.insert x o := rfl
      rcases ih (hstep ▸ ModuleOutputs.inOrder_insert h) hok with ⟨hord, hmem⟩
      refine ⟨hord, ?_⟩
      intro id
      rw [List.foldl_cons, hmem, hstep, ModuleOutputs.mem_ids_insert, List.map_cons, List.mem_cons]
      tauto
    | error e =>
      -- the failure would still be there at the end
      have hin : e ∈ (collect batch (x, .error e)).errors := by simp [collect]
      have hlast := errors_subset_foldl_collect r _ hin
      rw [List.foldl_cons] at hok
      simp [hok] at hlast

/-- The outputs that a pass over a graph takes over. -/
def keptOutputs (g : ModuleGraph) (reuse : Option (ModuleOutputs × List ModuleId)) :
    ModuleOutputs :=
  g.modules.filterMap fun m => (carried? reuse m.id).map (m.id, ·)

/-- The modules of which nothing is taken over. -/
def workOf (g : ModuleGraph) (reuse : Option (ModuleOutputs × List ModuleId)) : List Module :=
  g.modules.filter fun m => (carried? reuse m.id).isNone

/-- The batch from which a pass goes on: what is taken over. -/
def startOfPass (g : ModuleGraph) (reuse : Option (ModuleOutputs × List ModuleId)) :
    TransformBatch :=
  { outputs := (keptOutputs g reuse).foldl (fun o k => o.insert k.1 k.2) []
    errors := []
    transformed := 0
    reused := (keptOutputs g reuse).length }

/-- The outcomes for some modules, in the order in which they are finished. -/
def outcomes (t : Transformer) (work : List Module) :
    List (ModuleId × Except BuildError ModuleOutput) :=
  work.map fun m => (m.id, t.transformModule m)

/-- A pass collects the outcomes of the modules of which nothing is taken over. -/
theorem runWith_eq (finish : List Module → List Module) (t : Transformer) (g : ModuleGraph)
    (reuse : Option (ModuleOutputs × List ModuleId)) :
    (t.runWith finish g reuse).outputs =
        ((t.outcomes (finish (workOf g reuse))).foldl collect (startOfPass g reuse)).outputs ∧
      (t.runWith finish g reuse).errors =
        ((t.outcomes (finish (workOf g reuse))).foldl collect
          (startOfPass g reuse)).errors.mergeSort errorLe :=
  ⟨rfl, rfl⟩

/-- Without failures every module of the graph has an output, whether it was transformed or taken
over, and in whatever order the modules were finished. -/
theorem ids_runWith {finish : List Module → List Module} (hfinish : ∀ work, (finish work).Perm work)
    {t : Transformer} {g : ModuleGraph} {reuse : Option (ModuleOutputs × List ModuleId)}
    (hok : (t.runWith finish g reuse).errors = []) :
    (t.runWith finish g reuse).outputs.ids = g.ids := by
  obtain ⟨houtputs, herrors⟩ := runWith_eq finish t g reuse
  have hnone : ((t.outcomes (finish (workOf g reuse))).foldl collect (startOfPass g reuse)).errors =
      [] := List.nil_perm.1 ((herrors.symm.trans hok) ▸ List.mergeSort_perm _ _)
  have hstart : (startOfPass g reuse).outputs.InOrder :=
    ModuleOutputs.inOrder_foldl_insert ModuleOutputs.inOrder_nil
  rcases foldl_collect_spec hstart hnone with ⟨hord, hmem⟩
  rw [houtputs]
  refine ModuleId.eq_of_mem_iff hord (List.pairwise_map.2 g.inOrder) ?_
  intro id
  rw [hmem, startOfPass, ModuleOutputs.mem_ids_foldl_insert]
  constructor
  · rintro ((hnil | hkept) | hdone)
    · simp [ModuleOutputs.ids] at hnil
    · rcases List.mem_map.1 hkept with ⟨x, hx, rfl⟩
      rcases List.mem_filterMap.1 hx with ⟨m, hm, hcarried⟩
      rcases Option.map_eq_some_iff.1 hcarried with ⟨o, -, rfl⟩
      exact List.mem_map_of_mem hm
    · rw [outcomes, List.map_map] at hdone
      rcases List.mem_map.1 hdone with ⟨m, hm, rfl⟩
      exact List.mem_map_of_mem (List.mem_filter.1 ((hfinish _).mem_iff.1 hm)).1
  · intro hid
    rcases List.mem_map.1 hid with ⟨m, hm, rfl⟩
    -- a module is transformed unless an earlier output is taken over for it
    cases hcarried : carried? reuse m.id with
    | none =>
      have hwork : m ∈ workOf g reuse :=
        List.mem_filter.2 ⟨hm, by rw [hcarried, Option.isNone_none]⟩
      rw [outcomes, List.map_map]
      exact .inr (List.mem_map.2 ⟨m, (hfinish _).mem_iff.2 hwork, rfl⟩)
    | some o =>
      have hkept : (m.id, o) ∈ keptOutputs g reuse :=
        List.mem_filterMap.2 ⟨m, hm, by rw [hcarried, Option.map_some]⟩
      exact .inl (.inr (List.mem_map_of_mem hkept))

theorem ids_runIncremental {t : Transformer} {g : ModuleGraph}
    {reuse : Option (ModuleOutputs × List ModuleId)}
    (hok : (t.runIncremental g reuse).errors = []) :
    (t.runIncremental g reuse).outputs.ids = g.ids :=
  ids_runWith (fun work => List.Perm.refl work) hok

end Transformer

/-! ## Making scripts smaller -/

namespace Bundler

variable {b : Bundler} {outputs made : ModuleOutputs}

/-- Setting new outputs of some modules keeps the ids, and the outputs of all others. -/
theorem foldl_minified_spec {done : List (ModuleId × Except BuildError ModuleOutput)}
    (hord : outputs.InOrder) (hin : ∀ d ∈ done, d.1 ∈ outputs.ids)
    (hmade : done.foldl (fun outputs d =>
      match d.2 with
      | .ok o => outputs.insert d.1 o
      | .error _ => outputs) outputs = made) :
    made.ids = outputs.ids ∧ ∀ x ∉ done.map (·.1), made.get? x = outputs.get? x := by
  induction done generalizing outputs with
  | nil => exact ⟨hmade ▸ rfl, fun _ _ => hmade ▸ rfl⟩
  | cons d r ih =>
    rcases d with ⟨id, outcome⟩
    have hr : ∀ d ∈ r, d.1 ∈ outputs.ids := fun d hd => hin d (List.mem_cons_of_mem _ hd)
    cases outcome with
    | error e =>
      rcases ih hord hr hmade with ⟨hids, hget⟩
      refine ⟨hids, ?_⟩
      intro x hx
      exact hget x fun hmem => hx (List.mem_cons_of_mem _ hmem)
    | ok o =>
      have hsame := ModuleOutputs.ids_insert_of_mem (o := o) hord (hin _ List.mem_cons_self)
      rcases ih (ModuleOutputs.inOrder_insert hord) (hsame ▸ hr) hmade with ⟨hids, hget⟩
      refine ⟨hids.trans hsame, ?_⟩
      intro x hx
      rw [List.map_cons, List.mem_cons, not_or] at hx
      rw [hget x hx.2, ModuleOutputs.get?_insert, if_neg hx.1]

theorem mem_of_mem_scripts {x : ModuleId × String} (h : x ∈ scripts outputs) :
    (x.1, .code .script x.2) ∈ outputs := by
  rcases List.mem_filterMap.1 h with ⟨y, hy, hscript⟩
  split at hscript
  · next id code =>
    rw [← Option.some.inj hscript]
    exact hy
  · simp at hscript

/-- Making scripts smaller keeps the ids, and all outputs that are not scripts. -/
theorem minify_spec {name : String} (hord : outputs.InOrder)
    (h : b.minify name outputs = .ok made) :
    made.ids = outputs.ids ∧ ∀ id o, outputs.get? id = some o → (∀ code, o ≠ .code .script code) →
      made.get? id = some o := by
  unfold minify at h
  split at h
  · obtain rfl := Except.ok.inj h
    exact ⟨rfl, fun _ _ ho _ => ho⟩
  · simp at h
  · next work engine hwork hengine =>
    dsimp only at h
    split at h
    · simp at h
    · have hscripts : ∀ x ∈ scripts outputs, (x.1, .code .script x.2) ∈ outputs :=
        fun x hx => mem_of_mem_scripts hx
      have hin : ∀ d ∈ (scripts outputs).map fun x => (x.1, b.minifyScript name engine x.1 x.2),
          d.1 ∈ outputs.ids := by
        intro d hd
        rcases List.mem_map.1 hd with ⟨x, hx, rfl⟩
        exact List.mem_map_of_mem (hscripts x hx)
      rcases foldl_minified_spec hord hin (Except.ok.inj h) with ⟨hids, hget⟩
      refine ⟨hids, ?_⟩
      intro id o ho hother
      -- only scripts are set again, and an id has one output
      have hkept : id ∉ ((scripts outputs).map fun x =>
          (x.1, b.minifyScript name engine x.1 x.2)).map (·.1) := by
        rw [List.map_map]
        intro hwork
        rcases List.mem_map.1 hwork with ⟨x, hx, rfl⟩
        have hscript := ModuleOutputs.get?_of_mem (hord.imp ModuleId.ne_of_lt) (hscripts x hx)
        exact hother x.2 (Option.some.inj (ho.symm.trans hscript))
      rw [hget id hkept, ho]

/-- The stage that makes scripts smaller keeps the ids, and all outputs that are not scripts. -/
theorem minifyStage_spec (hord : outputs.InOrder) (h : b.minifyStage outputs = .ok made) :
    made.ids = outputs.ids ∧ ∀ id o, outputs.get? id = some o → (∀ code, o ≠ .code .script code) →
      made.get? id = some o := by
  have hsame : made = outputs → made.ids = outputs.ids ∧ ∀ id o, outputs.get? id = some o →
      (∀ code, o ≠ .code .script code) → made.get? id = some o := by
    rintro rfl
    exact ⟨rfl, fun _ _ ho _ => ho⟩
  unfold minifyStage at h
  split at h
  · split at h
    · exact minify_spec hord h
    · exact hsame (Except.ok.inj h).symm
  · exact hsame (Except.ok.inj h).symm

end Bundler

end Bindery
