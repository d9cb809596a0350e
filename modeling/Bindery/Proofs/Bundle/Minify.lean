import Bindery.Proofs.Bundle.Build
import Bindery.Proofs.Bundle.Reuse

/-!
# Making scripts smaller, once and again

What the minifying stage gives is, module by module, what was there before or what the minimizer made
of a script. It never makes a copy. When it goes over its own results, they stay as they are if the
minimizer leaves alone what it has made.

* `Bundler.get?_of_minifyStage` : outputs after the stage.
* `Bundler.assetIds_minifyStage` : the copies are the same as before.
* `Bundler.minifyStage_again` : going over the results of the stage.
-/

namespace Bindery

namespace ModuleOutputs

variable {outputs : ModuleOutputs} {id : ModuleId} {o : ModuleOutput}

/-- Setting the output that is there changes nothing. -/
theorem insert_eq_self (h : outputs.InOrder) (ho : outputs.get? id = some o) :
    outputs.insert id o = outputs := by
  induction outputs with
  | nil => cases ho
  | cons y r ih =>
    rcases y with ⟨k, x⟩
    obtain ⟨hfirst, hrest⟩ := List.pairwise_cons.1 h
    rw [get?_cons] at ho
    unfold insert
    by_cases hid : id = k
    · rw [if_pos hid] at ho
      rw [if_pos hid, hid, Option.some.inj ho]
    · rw [if_neg hid] at ho
      -- what comes later has a greater id
      have hlater : k < id := hfirst id (List.mem_map_of_mem (mem_of_get? ho))
      have hnlt : ¬id < k := fun hlt => ModuleId.lt_irrefl _ (ModuleId.lt_trans hlt hlater)
      rw [if_neg hid, if_neg hnlt, ih hrest ho]

theorem mem_assetIds (hnodup : outputs.ids.Nodup) :
    id ∈ outputs.assetIds ↔ ∃ file bytes, outputs.get? id = some (.asset file bytes) := by
  constructor
  · exact exists_asset_of_mem_assetIds hnodup
  · rintro ⟨file, bytes, hget⟩
    exact List.mem_map.2 ⟨_, List.mem_filter.2 ⟨mem_of_get? hget, rfl⟩, rfl⟩

theorem pairwise_assetIds (h : outputs.InOrder) : outputs.assetIds.Pairwise (· < ·) :=
  List.Pairwise.sublist ((List.filter_sublist).map _) h

end ModuleOutputs

namespace Bundler

variable {b : Bundler} {name : String} {outputs made : ModuleOutputs} {id : ModuleId}
  {o : ModuleOutput}

theorem mem_scripts {code : String} :
    (id, code) ∈ scripts outputs ↔ (id, .code .script code) ∈ outputs := by
  constructor
  · exact fun h => mem_of_mem_scripts h
  · intro h
    exact List.mem_filterMap.2 ⟨_, h, rfl⟩

/-- Of a script the minimizer makes code. -/
theorem ne_asset_of_minifyScript {engine : Engine} {code : String}
    (h : b.minifyScript name engine id code = .ok o) (file : String) (bytes : ByteArray) :
    o ≠ .asset file bytes := by
  unfold minifyScript at h
  split at h
  · obtain rfl := Except.ok.inj h
    intro heq
    cases heq
  · cases h
  · cases h

/-- Outputs after some were set are the new ones, and the others as they were. -/
theorem get?_foldl_minified {done : List (ModuleId × Except BuildError ModuleOutput)}
    (hok : ∀ d ∈ done, ∃ o, d.2 = .ok o)
    (hmade : done.foldl (fun outputs d =>
      match d.2 with
      | .ok o => outputs.insert d.1 o
      | .error _ => outputs) outputs = made) (ho : made.get? id = some o) :
    (id ∉ done.map (·.1) ∧ outputs.get? id = some o) ∨ (id, .ok o) ∈ done := by
  induction done generalizing outputs with
  | nil =>
    obtain rfl := hmade
    exact .inl ⟨by simp, ho⟩
  | cons d r ih =>
    obtain ⟨⟨new, hnew⟩, hrest⟩ := List.forall_mem_cons.1 hok
    rcases d with ⟨x, outcome⟩
    obtain rfl : outcome = .ok new := hnew
    rcases ih hrest hmade with ⟨hid, hget⟩ | hmem
    · rw [ModuleOutputs.get?_insert] at hget
      by_cases hx : id = x
      · rw [if_pos hx] at hget
        refine .inr ?_
        rw [hx, Option.some.inj hget]
        exact List.mem_cons_self
      · rw [if_neg hx] at hget
        exact .inl ⟨by simp [hx, hid], hget⟩
    · exact .inr (List.mem_cons_of_mem _ hmem)

/-- An output after the stage was there before, or is what the minimizer made of a script. -/
theorem get?_of_minify (h : b.minify name outputs = .ok made) (ho : made.get? id = some o) :
    ((∀ code, (id, code) ∉ scripts outputs) ∧ outputs.get? id = some o) ∨
      ∃ engine code, b.registry.get? name = some engine ∧ (id, code) ∈ scripts outputs ∧
        b.minifyScript name engine id code = .ok o := by
  unfold minify at h
  split at h
  · next hnone =>
    obtain rfl := Except.ok.inj h
    exact .inl ⟨by simp [hnone], ho⟩
  · cases h
  · next engine hengine _ =>
    dsimp only at h
    split at h
    · cases h
    · next hnone =>
      have hok : ∀ d ∈ (scripts outputs).map fun x => (x.1, b.minifyScript name engine x.1 x.2),
          ∃ o, d.2 = .ok o := by
        intro d hd
        cases houtcome : d.2 with
        | ok o => exact ⟨o, rfl⟩
        | error e =>
          -- a script that could not be made smaller would have been told of
          have hnil := List.filterMap_eq_nil_iff.1 (BuildError.ofList_eq_none hnone) d hd
          rcases d with ⟨x, outcome⟩
          obtain rfl : outcome = .error e := houtcome
          cases hnil
      rcases get?_foldl_minified hok (Except.ok.inj h) ho with ⟨hid, hget⟩ | hmem
      · refine .inl ⟨?_, hget⟩
        intro code hcode
        refine hid ?_
        rw [List.map_map]
        exact List.mem_map.2 ⟨_, hcode, rfl⟩
      · obtain ⟨⟨x, code⟩, hcode, heq⟩ := List.mem_map.1 hmem
        obtain ⟨rfl, hmade⟩ := Prod.mk.inj heq
        exact .inr ⟨engine, code, hengine, hcode, hmade⟩

/-- An output after the stage was there before, or is what a minimizer made. -/
theorem get?_of_minifyStage (h : b.minifyStage outputs = .ok made) (ho : made.get? id = some o) :
    outputs.get? id = some o ∨
      ∃ name engine code, b.minifyScript name engine id code = .ok o := by
  have hsame : .ok outputs = (.ok made : Except BuildError ModuleOutputs) →
      outputs.get? id = some o := by
    intro heq
    rw [Except.ok.inj heq]
    exact ho
  unfold minifyStage at h
  split at h
  · next s _ =>
    split at h
    · rcases get?_of_minify h ho with ⟨-, hget⟩ | ⟨engine, code, -, -, hmade⟩
      · exact .inl hget
      · exact .inr ⟨s.minimizer, engine, code, hmade⟩
    · exact .inl (hsame h)
  · exact .inl (hsame h)

/-- The copies after the stage are those before. -/
theorem assetIds_minifyStage (hord : outputs.InOrder) (h : b.minifyStage outputs = .ok made) :
    made.assetIds = outputs.assetIds := by
  obtain ⟨hids, hkept⟩ := minifyStage_spec hord h
  have hordMade : made.InOrder := by rwa [ModuleOutputs.InOrder, hids]
  refine ModuleId.eq_of_mem_iff (ModuleOutputs.pairwise_assetIds hordMade)
    (ModuleOutputs.pairwise_assetIds hord) ?_
  intro id
  rw [ModuleOutputs.mem_assetIds (hordMade.imp ModuleId.ne_of_lt),
    ModuleOutputs.mem_assetIds (hord.imp ModuleId.ne_of_lt)]
  constructor
  · rintro ⟨file, bytes, hget⟩
    refine ⟨file, bytes, (get?_of_minifyStage h hget).resolve_right ?_⟩
    rintro ⟨name, engine, code, hmade⟩
    exact ne_asset_of_minifyScript hmade file bytes rfl
  · rintro ⟨file, bytes, hget⟩
    exact ⟨file, bytes, hkept id _ hget fun code heq => by cases heq⟩

/-! ## Once more -/

/-- A minimizer leaves alone the scripts that it has made. -/
def Settles (b : Bundler) (name : String) : Prop :=
  ∀ engine, b.registry.get? name = some engine → ∀ id code small,
    b.minifyScript name engine id code = .ok (.code .script small) →
      b.minifyScript name engine id small = .ok (.code .script small)

theorem minify_of_settled (hord : outputs.InOrder)
    (h : ∀ id code, (id, code) ∈ scripts outputs → ∃ engine, b.registry.get? name = some engine ∧
      b.minifyScript name engine id code = .ok (.code .script code)) :
    b.minify name outputs = .ok outputs := by
  have hfold : ∀ work ⊆ scripts outputs, work.foldl (fun (outputs : ModuleOutputs) x =>
      outputs.insert x.1 (.code .script x.2)) outputs = outputs := by
    intro work hwork
    induction work with
    | nil => rfl
    | cons x r ih =>
      obtain ⟨hx, hr⟩ := List.cons_subset.1 hwork
      have hget := ModuleOutputs.get?_of_mem (hord.imp ModuleId.ne_of_lt) (mem_scripts.1 hx)
      rw [List.foldl_cons, ModuleOutputs.insert_eq_self hord hget, ih hr]
  unfold minify
  split
  · rfl
  · next x _ _ hwork hnone =>
    obtain ⟨engine, hengine, -⟩ := h x _ (hwork ▸ List.mem_cons_self)
    rw [hnone] at hengine
    cases hengine
  · next engine hengine _ =>
    have hdone : (scripts outputs).map (fun x => (x.1, b.minifyScript name engine x.1 x.2)) =
        (scripts outputs).map fun x => (x.1, .ok (.code .script x.2)) := by
      refine List.map_congr_left ?_
      intro x hx
      obtain ⟨engine', hengine', hmade⟩ := h x.1 x.2 hx
      obtain rfl := Option.some.inj (hengine.symm.trans hengine')
      rw [hmade]
    rw [hdone]
    dsimp only
    rw [List.filterMap_eq_nil_iff.2, BuildError.ofList, List.foldl_map]
    · exact congrArg Except.ok (hfold _ (List.Subset.refl _))
    · intro d hd
      obtain ⟨x, -, rfl⟩ := List.mem_map.1 hd
      rfl

/-- The stage keeps its own results when the minimizer leaves alone what it has made. -/
theorem minifyStage_again (hord : outputs.InOrder)
    (hsettles : ∀ s, b.profile.settings = .production s → b.Settles s.minimizer)
    (h : b.minifyStage outputs = .ok made) : b.minifyStage made = .ok made := by
  obtain ⟨hids, -⟩ := minifyStage_spec hord h
  have hordMade : made.InOrder := by rwa [ModuleOutputs.InOrder, hids]
  unfold minifyStage at *
  split at h
  · next s hsettings =>
    split at h
    · next hhas =>
      rw [if_pos hhas]
      refine minify_of_settled hordMade ?_
      intro id code hcode
      have hget := ModuleOutputs.get?_of_mem (hordMade.imp ModuleId.ne_of_lt) (mem_scripts.1 hcode)
      rcases get?_of_minify h hget with ⟨hnone, hbefore⟩ | ⟨engine, before, hengine, -, hmade⟩
      · -- a script that was there before has been made smaller
        exact absurd (mem_scripts.2 (ModuleOutputs.mem_of_get? hbefore)) (hnone code)
      · exact ⟨engine, hengine, hsettles s hsettings engine hengine id before code hmade⟩
    · next hhas => rw [if_neg hhas]
  · rfl

end Bundler

end Bindery
