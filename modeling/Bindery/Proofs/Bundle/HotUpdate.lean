import Bindery.Bundle.HotUpdate
import Bindery.Proofs.Graph.ChangeChain

/-!
# What running pages take over

A running page takes over changed modules without being loaded again only if hot updates are on, no
module appeared or disappeared, and none of the changed modules is marked by a pattern or writes to
the global object in its new version. What the old version wrote is not looked at: it has run in the
page, and it stays there when the module that wrote it is replaced by one that does not.

* `HotUpdate.reload_eq_none_iff` : when no full reload is asked for.
* `HotUpdate.Partial`, `HotUpdate.Safe` : what is then certain, and what would have to be.
* `HotUpdate.safe_iff` : an update is safe exactly if, on top of that, no old version of a changed
  module writes to the global object.
* `HotUpdate.not_safe_retired` : a write that an edit removes is left in the page.
-/

namespace Bindery

namespace IdSet

/-- A set made from a list is in order. -/
theorem pairwise_ofList (ids : List ModuleId) : (ofList ids).Pairwise (· < ·) := by
  suffices h : ∀ s : IdSet, s.Pairwise (· < ·) → (insertAll ids s).Pairwise (· < ·) from
    h [] List.Pairwise.nil
  induction ids with
  | nil => exact fun s h => h
  | cons id r ih => exact fun s h => ih _ (pairwise_insert h)

end IdSet

namespace ModuleGraph

/-- The module, if the graph has it, does not write to the global object. -/
def Isolated (g : ModuleGraph) (id : ModuleId) : Prop :=
  ∀ m, g.module? id = some m → m.hasGlobalState = false

end ModuleGraph

namespace ChangeSet

variable {older newer : ModuleGraph}

/-- No module appeared or disappeared exactly if both graphs have the same ids. -/
theorem isStructural_between_eq_false_iff :
    (between older newer).isStructural = false ↔ older.ids = newer.ids := by
  have hempty : (between older newer).isStructural = false ↔
      (∀ id ∈ newer.ids, id ∈ older.ids) ∧ ∀ id ∈ older.ids, id ∈ newer.ids := by
    simp [isStructural, between, List.filter_eq_nil_iff, ModuleGraph.contains_iff]
  rw [hempty]
  constructor
  · rintro ⟨hadded, hremoved⟩
    exact ModuleId.eq_of_mem_iff older.pairwise_ids newer.pairwise_ids fun id =>
      ⟨hremoved id, hadded id⟩
  · intro h
    rw [h]
    exact ⟨fun _ hid => hid, fun _ hid => hid⟩

end ChangeSet

namespace HotUpdate

variable {older newer g : ModuleGraph} {hot : Bool} {patterns : List Pattern} {id : ModuleId}

/-- The update from one snapshot to a newer one. -/
def between (older newer : ModuleGraph) (hot : Bool) (patterns : List Pattern) : HotUpdate :=
  plan (.between older newer) newer hot patterns

theorem moduleReason?_eq_none_iff {m : Module} (hm : g.module? id = some m) :
    moduleReason? g patterns id = none ↔
      (∀ p ∈ patterns, p.isMatch id.text = false) ∧ m.hasGlobalState = false := by
  unfold moduleReason?
  cases hfind : patterns.find? (·.isMatch id.text) with
  | some p =>
    have hmatch : p.isMatch id.text = true := by simpa using List.find?_some hfind
    have hmem := List.mem_of_find?_eq_some hfind
    simp only [reduceCtorEq, false_iff, not_and]
    intro hnone
    rw [hnone p hmem] at hmatch
    cases hmatch
  | none =>
    have hnone : ∀ p ∈ patterns, p.isMatch id.text = false := by simpa using hfind
    rw [hm, Option.all_some]
    cases hwrites : m.hasGlobalState with
    | false => simpa using hnone
    | true => simp

/-- When no full reload is asked for. -/
theorem reload_eq_none_iff : (between older newer hot patterns).reload = none ↔
    hot = true ∧ older.ids = newer.ids ∧ ∀ id ∈ (between older newer hot patterns).changed,
      (∀ p ∈ patterns, p.isMatch id.text = false) ∧ newer.Isolated id := by
  show reason? (.between older newer) newer hot patterns = none ↔ _ ∧ _ ∧
    ∀ id ∈ (ChangeSet.between older newer).changedIds, _
  unfold reason?
  cases hot with
  | false => simp
  | true =>
    simp only [Bool.not_true, Bool.false_eq_true, if_false, true_and]
    by_cases hids : older.ids = newer.ids
    · have hsame := ChangeSet.isStructural_between_eq_false_iff.2 hids
      simp only [hsame, Bool.false_eq_true, if_false, List.findSome?_eq_none_iff, hids, true_and]
      refine forall₂_congr fun id hid => ?_
      -- a changed module of graphs with the same ids is in both
      have hmem : id ∈ newer.ids := by
        rw [ChangeSet.mem_changedIds_between, ModuleGraph.Differs] at hid
        by_contra hnot
        have hnew := ModuleGraph.module?_eq_none_iff.2
          (Bool.eq_false_iff.2 fun h => hnot (ModuleGraph.contains_iff.1 h))
        have hold := ModuleGraph.module?_eq_none_iff.2
          (Bool.eq_false_iff.2 fun h => hnot (hids ▸ ModuleGraph.contains_iff.1 h))
        exact hid (by rw [hnew, hold])
      obtain ⟨m, hm⟩ := ModuleGraph.exists_module?_iff.2 (ModuleGraph.contains_iff.2 hmem)
      rw [moduleReason?_eq_none_iff hm]
      simp [ModuleGraph.Isolated, hm]
    · have hdiffer : (ChangeSet.between older newer).isStructural = true := by
        rw [← Bool.not_eq_false, ChangeSet.isStructural_between_eq_false_iff]
        exact hids
      simp [hdiffer, hids]

/-- What is certain of an update that running pages take over. -/
structure Partial (older newer : ModuleGraph) (hot : Bool) (patterns : List Pattern)
    (u : HotUpdate) : Prop where
  enabled : hot = true
  /-- No module appeared or disappeared. -/
  ids : older.ids = newer.ids
  /-- The changed modules are named in order, each once. -/
  ordered : u.changed.Pairwise (· < ·)
  /-- They are those whose content differs. -/
  changed : ∀ id, id ∈ u.changed ↔ older.Differs newer id
  /-- So they are those whose sources differ, as far as digests tell sources apart. -/
  sources : ∀ id m m', older.module? id = some m → newer.module? id = some m' →
    m.hash = Digest.blake3 m.source → m'.hash = Digest.blake3 m'.source →
    (Digest.blake3 m.source = Digest.blake3 m'.source → m.source = m'.source) →
    (id ∈ u.changed ↔ m.source ≠ m'.source)
  /-- No pattern of the settings marks one of them. -/
  unmarked : ∀ id ∈ u.changed, ∀ p ∈ patterns, p.isMatch id.text = false
  /-- None of them writes to the global object when its new version is run. -/
  isolated : ∀ id ∈ u.changed, newer.Isolated id

/-- What makes an update safe: besides, nothing that is replaced has written to the global object of
a running page. -/
structure Safe (older newer : ModuleGraph) (hot : Bool) (patterns : List Pattern)
    (u : HotUpdate) : Prop extends Partial older newer hot patterns u where
  untraced : ∀ id ∈ u.changed, older.Isolated id

theorem partial_of_reload_eq_none (h : (between older newer hot patterns).reload = none) :
    Partial older newer hot patterns (between older newer hot patterns) := by
  obtain ⟨hhot, hids, hchanged⟩ := reload_eq_none_iff.1 h
  have hdiffers : ∀ id, id ∈ (between older newer hot patterns).changed ↔ older.Differs newer id :=
    fun id => ChangeSet.mem_changedIds_between
  exact {
    enabled := hhot
    ids := hids
    ordered := IdSet.pairwise_ofList _
    changed := hdiffers
    sources := by
      intro id m m' hm hm' hhash hhash' hcollide
      rw [hdiffers, ModuleGraph.Differs, hm, hm', Option.map_some, Option.map_some, ne_eq,
        Option.some.injEq, hhash, hhash']
      exact not_congr ⟨hcollide, congrArg Digest.blake3⟩
    unmarked := fun id hid => (hchanged id hid).1
    isolated := fun id hid => (hchanged id hid).2 }

/-- No full reload is asked for exactly if what is certain of partial updates holds. Such an update
is safe exactly if no old version of a changed module writes to the global object. -/
theorem safe_iff (older newer : ModuleGraph) (hot : Bool) (patterns : List Pattern) :
    ((between older newer hot patterns).reload = none ↔
        Partial older newer hot patterns (between older newer hot patterns)) ∧
      (Safe older newer hot patterns (between older newer hot patterns) ↔
        (between older newer hot patterns).reload = none ∧
          ∀ id ∈ (between older newer hot patterns).changed, older.Isolated id) := by
  have hpartial : (between older newer hot patterns).reload = none ↔
      Partial older newer hot patterns (between older newer hot patterns) := by
    refine ⟨partial_of_reload_eq_none, ?_⟩
    intro h
    exact reload_eq_none_iff.2
      ⟨h.enabled, h.ids, fun id hid => ⟨h.unmarked id hid, h.isolated id hid⟩⟩
  refine ⟨hpartial, ?_⟩
  constructor
  · intro h
    exact ⟨hpartial.2 h.toPartial, h.untraced⟩
  · rintro ⟨hnone, huntraced⟩
    exact ⟨hpartial.1 hnone, huntraced⟩

/-- A project of one script. -/
def oneScript (text : String) : ModuleGraph :=
  .ofModules [] [.ofSource ⟨"store.js"⟩ "/app/store.js" text.toUTF8]

/-- The old version of the script has written to the global object, the new one does not: running
pages take the new one over and keep what the old one wrote. -/
theorem not_safe_retired :
    (between (oneScript "window.store = 0;") (oneScript "export default 1;") true []).reload = none ∧
      ¬Safe (oneScript "window.store = 0;") (oneScript "export default 1;") true []
        (between (oneScript "window.store = 0;") (oneScript "export default 1;") true []) := by
  constructor
  · refine reload_eq_none_iff.2 ⟨rfl, rfl, fun id _ => ⟨by simp, ?_⟩⟩
    intro m hm
    have hmem : m ∈ [Module.ofSource ⟨"store.js"⟩ "/app/store.js" "export default 1;".toUTF8] :=
      (ModuleGraph.mem_of_module? hm).1
    rw [List.mem_singleton.1 hmem]
    decide +kernel
  · intro h
    have hdiffers : (oneScript "window.store = 0;").Differs (oneScript "export default 1;")
        ⟨"store.js"⟩ := by
      unfold ModuleGraph.Differs
      decide +kernel
    have hisolated := h.untraced ⟨"store.js"⟩ ((h.changed _).2 hdiffers) _ rfl
    revert hisolated
    decide +kernel

end HotUpdate

end Bindery
