import Bindery.Proofs.Graph.Change

/-!
# Differences along a chain of snapshots

Differences from one snapshot to the next are folded into one change set. For each module this runs
a small machine: what is told about the module so far decides what its removal, addition or
modification makes of it. Modules that are in only one of the first and the last snapshot are told
exactly; a module that is in both counts as modified if it ever changed, even if it is back to its
first content. What is affected is never missed: a way from an importer to a changed module of the
last snapshot was already there in the one before, unless something on the way changed since then.

* `Told`, `Told.next` : what is told about one module, and how a later snapshot changes it.
* `told_absorb_between` : folding differences runs this machine for every module.
* `affected_between_subset` : what is affected between two snapshots is affected on the way.
* `Covers`, `Covers.absorb` : what folded differences tell, and that one more snapshot keeps it.
* `covers_absorbAll` : so it holds along every chain.
-/

namespace Bindery

namespace IdSet

variable {id x : ModuleId} {s : IdSet}

/-- Adding a member keeps the order. -/
theorem pairwise_insert (h : s.Pairwise (· < ·)) : (insert id s).Pairwise (· < ·) := by
  induction s with
  | nil => exact List.pairwise_singleton _ _
  | cons y r ih =>
    obtain ⟨hy, hr⟩ := List.pairwise_cons.1 h
    unfold insert
    split
    · exact h
    · next hne =>
      split
      · next hlt =>
        refine List.pairwise_cons.2 ⟨?_, h⟩
        intro z hz
        rcases List.mem_cons.1 hz with rfl | hz
        · exact hlt
        · exact ModuleId.lt_trans hlt (hy z hz)
      · next hnlt =>
        refine List.pairwise_cons.2 ⟨?_, ih hr⟩
        intro z hz
        rcases mem_insert.1 hz with rfl | hz
        · exact ModuleId.lt_of_not_lt hnlt (Ne.symm hne)
        · exact hy z hz

end IdSet

namespace ModuleGraph

variable {g older mid newer : ModuleGraph} {id x y : ModuleId} {changed : List ModuleId}

/-- The digest of a module of the graph. -/
def hash? (g : ModuleGraph) (id : ModuleId) : Option String := (g.module? id).map (·.hash)

theorem hash?_eq_some_iff {digest : String} :
    g.hash? id = some digest ↔ ∃ m ∈ g.modules, m.id = id ∧ m.hash = digest := by
  simp only [hash?, Option.map_eq_some_iff, module?_eq_some_iff, and_assoc]

theorem hash?_eq_none_iff : g.hash? id = none ↔ id ∉ g.ids := by
  rw [hash?, Option.map_eq_none_iff, module?_eq_none_iff, ← contains_iff, Bool.not_eq_true]

/-- Modules of two graphs with the same id and the same content have the same resolved imports. -/
def SameImports (g g' : ModuleGraph) : Prop :=
  ∀ m ∈ g.modules, ∀ m' ∈ g'.modules, m.id = m'.id → m.hash = m'.hash →
    m.dependencies = m'.dependencies

/-- What imports an ancestor is one. -/
theorem mem_ancestors_of_imports (hy : y ∈ g.ancestors changed) (h : g.Imports x y) :
    x ∈ g.ancestors changed := by
  obtain ⟨c, hc, hpath⟩ := mem_ancestors_iff.1 hy
  exact mem_ancestors_iff.2 ⟨c, hc, hpath.tail h⟩

/-- A module that did not change imported the same before. -/
theorem imports_of_hash?_eq (hsame : mid.SameImports newer) (h : newer.Imports x y)
    (hhash : mid.hash? x = newer.hash? x) : mid.Imports x y := by
  obtain ⟨m', hm', hid', hy⟩ := h
  have hnew : newer.hash? x = some m'.hash := hash?_eq_some_iff.2 ⟨m', hm', hid', rfl⟩
  obtain ⟨m, hm, hid, hdigest⟩ := hash?_eq_some_iff.1 (hhash.trans hnew)
  have hdependencies : m.dependencies = m'.dependencies :=
    hsame m hm m' hm' (hid.trans hid'.symm) hdigest
  exact ⟨m, hm, hid, hdependencies ▸ hy⟩

end ModuleGraph

/-! ## One module -/

/-- What differences tell about one module. -/
structure Told where
  added : Bool
  removed : Bool
  modified : Bool

namespace Told

/-- A later removal. -/
def remove (t : Told) : Told :=
  if t.added then { t with added := false } else { t with modified := false, removed := true }

/-- A later addition. -/
def add (t : Told) : Told :=
  if t.removed then { t with removed := false, modified := true } else { t with added := true }

/-- A later modification. -/
def modify (t : Told) : Told := if t.added then t else { t with modified := true }

/-- What is told when the module went from one content to another one. -/
def next (t : Told) : (before after : Option String) → Told
  | some _, none => t.remove
  | none, some _ => t.add
  | some digest, some digest' => if digest = digest' then t else t.modify
  | none, none => t

/-- What is told is right for a module that had the one content at first and has the other one now. -/
structure Fits (t : Told) (first now : Option String) : Prop where
  added : t.added = true ↔ first = none ∧ now ≠ none
  removed : t.removed = true ↔ first ≠ none ∧ now = none
  modified : first ≠ none → now ≠ none → first ≠ now → t.modified = true
  common : t.modified = true → first ≠ none ∧ now ≠ none

variable {t : Told} {first : Option String} {digest digest' : String}

theorem Fits.remove (h : t.Fits first (some digest)) : t.remove.Fits first none := by
  cases hfirst : first with
  | none =>
    -- it was added on the way, and nothing is left of that
    subst hfirst
    have hadded : t.added = true := h.added.2 ⟨rfl, Option.some_ne_none _⟩
    have hremoved : ¬t.removed = true := fun hr => (h.removed.1 hr).1 rfl
    have hmodified : ¬t.modified = true := fun hm => (h.common hm).1 rfl
    constructor <;> simp [Told.remove, hadded, hremoved, hmodified]
  | some _ =>
    subst hfirst
    have hadded : ¬t.added = true := fun ha => Option.some_ne_none _ (h.added.1 ha).1
    constructor <;> simp [Told.remove, hadded]

theorem Fits.add (h : t.Fits first none) : t.add.Fits first (some digest) := by
  have hadded : ¬t.added = true := fun ha => (h.added.1 ha).2 rfl
  have hmodified : ¬t.modified = true := fun hm => (h.common hm).2 rfl
  cases hfirst : first with
  | none =>
    subst hfirst
    have hremoved : ¬t.removed = true := fun hr => (h.removed.1 hr).1 rfl
    constructor <;> simp [Told.add, hremoved, hmodified]
  | some _ =>
    -- it was there at first, so its content may have changed
    subst hfirst
    have hremoved : t.removed = true := h.removed.2 ⟨Option.some_ne_none _, rfl⟩
    constructor <;> simp [Told.add, hremoved, hadded]

theorem Fits.modify (h : t.Fits first (some digest)) : t.modify.Fits first (some digest') := by
  have hremoved : ¬t.removed = true := fun hr => Option.some_ne_none _ (h.removed.1 hr).2
  cases hfirst : first with
  | none =>
    -- it was added on the way and stays so
    subst hfirst
    have hadded : t.added = true := h.added.2 ⟨rfl, Option.some_ne_none _⟩
    have hmodified : ¬t.modified = true := fun hm => (h.common hm).1 rfl
    constructor <;> simp [Told.modify, hadded, hremoved, hmodified]
  | some _ =>
    subst hfirst
    have hadded : ¬t.added = true := fun ha => Option.some_ne_none _ (h.added.1 ha).1
    constructor <;> simp [Told.modify, hadded, hremoved]

/-- What is right stays right. -/
theorem Fits.next {before after : Option String} (h : t.Fits first before) :
    (t.next before after).Fits first after := by
  cases before with
  | none =>
    cases after with
    | none => exact h
    | some digest => exact h.add
  | some digest =>
    cases after with
    | none => exact h.remove
    | some digest' =>
      show (if digest = digest' then t else t.modify).Fits first (some digest')
      split
      · next heq => exact heq ▸ h
      · exact h.modify

end Told

/-! ## Folding -/

namespace ChangeSet

variable {c later : ChangeSet} {id x : ModuleId} {older mid newer : ModuleGraph}

/-- What differences tell about a module. -/
def told (c : ChangeSet) (id : ModuleId) : Told :=
  { added := c.added.contains id
    removed := c.removed.contains id
    modified := c.modified.contains id }

theorem told_remove :
    (c.remove id).told x = if x = id then (c.told x).remove else c.told x := by
  by_cases hx : x = id
  · subst hx
    -- what was added is gone, and anything else counts as removed
    by_cases hadded : x ∈ c.added
    · simp [told, ChangeSet.remove, Told.remove, hadded, IdSet.mem_remove]
    · simp [told, ChangeSet.remove, Told.remove, hadded, IdSet.mem_insert, IdSet.mem_remove]
  · unfold ChangeSet.remove
    split
    · simp [told, hx, IdSet.mem_remove]
    · simp [told, hx, IdSet.mem_insert, IdSet.mem_remove]

theorem told_add : (c.add id).told x = if x = id then (c.told x).add else c.told x := by
  by_cases hx : x = id
  · subst hx
    -- what was removed is back and may be different, and anything else counts as added
    by_cases hremoved : x ∈ c.removed
    · simp [told, ChangeSet.add, Told.add, hremoved, IdSet.mem_insert, IdSet.mem_remove]
    · simp [told, ChangeSet.add, Told.add, hremoved, IdSet.mem_insert]
  · unfold ChangeSet.add
    split
    · simp [told, hx, IdSet.mem_insert, IdSet.mem_remove]
    · simp [told, hx, IdSet.mem_insert]

theorem told_modify : (c.modify id).told x = if x = id then (c.told x).modify else c.told x := by
  by_cases hx : x = id
  · subst hx
    -- what was added stays so, whatever its content is
    by_cases hadded : x ∈ c.added
    · simp [told, ChangeSet.modify, Told.modify, hadded]
    · simp [told, ChangeSet.modify, Told.modify, hadded, IdSet.mem_insert]
  · unfold ChangeSet.modify
    split
    · simp
    · simp [told, hx, IdSet.mem_insert]

/-- Steps that each change what is told about one module, all for different modules. -/
theorem told_foldl {step : ChangeSet → ModuleId → ChangeSet} {act : Told → Told}
    (hstep : ∀ c id x, (step c id).told x = if x = id then act (c.told x) else c.told x)
    {ids : List ModuleId} (h : ids.Nodup) (c : ChangeSet) :
    (ids.foldl step c).told x = if x ∈ ids then act (c.told x) else c.told x := by
  induction ids generalizing c with
  | nil => rfl
  | cons id r ih =>
    obtain ⟨hid, hr⟩ := List.nodup_cons.1 h
    rw [List.foldl_cons, ih hr, hstep]
    by_cases hx : x = id
    · subst hx
      simp only [hid, if_false, if_true, List.mem_cons_self]
    · simp only [hx, if_false, List.mem_cons, false_or]

/-- What steps never touch is the same after all of them. -/
theorem affected_foldl {step : ChangeSet → ModuleId → ChangeSet}
    (hstep : ∀ c id, (step c id).affected = c.affected) (ids : List ModuleId) (c : ChangeSet) :
    (ids.foldl step c).affected = c.affected := by
  induction ids generalizing c with
  | nil => rfl
  | cons id r ih => rw [List.foldl_cons, ih, hstep]

theorem mem_affected_absorb : id ∈ (c.absorb later).affected ↔
    id ∈ later.affected ∨ id ∈ c.affected := by
  have hremove : ∀ c id, (ChangeSet.remove c id).affected = c.affected := by
    intro c id
    unfold ChangeSet.remove
    split <;> rfl
  have hadd : ∀ c id, (ChangeSet.add c id).affected = c.affected := by
    intro c id
    unfold ChangeSet.add
    split <;> rfl
  have hmodify : ∀ c id, (ChangeSet.modify c id).affected = c.affected := by
    intro c id
    unfold ChangeSet.modify
    split <;> rfl
  simp only [absorb, IdSet.mem_insertAll, affected_foldl hremove, affected_foldl hadd,
    affected_foldl hmodify]

/-- The members of a set are in order where they are compared with those of another one. -/
structure InOrder (c : ChangeSet) : Prop where
  added : c.added.Pairwise (· < ·)
  removed : c.removed.Pairwise (· < ·)

theorem InOrder.remove (h : c.InOrder) : (c.remove id).InOrder := by
  unfold ChangeSet.remove
  split
  · exact ⟨h.added.filter _, h.removed⟩
  · exact ⟨h.added, IdSet.pairwise_insert h.removed⟩

theorem InOrder.add (h : c.InOrder) : (c.add id).InOrder := by
  unfold ChangeSet.add
  split
  · exact ⟨h.added, h.removed.filter _⟩
  · exact ⟨IdSet.pairwise_insert h.added, h.removed⟩

theorem InOrder.modify (h : c.InOrder) : (c.modify id).InOrder := by
  unfold ChangeSet.modify
  split
  · exact h
  · exact ⟨h.added, h.removed⟩

theorem InOrder.absorb (h : c.InOrder) (later : ChangeSet) : (c.absorb later).InOrder := by
  have hremoved : (later.removed.foldl ChangeSet.remove c).InOrder :=
    List.foldlRecOn _ _ h fun c hc id _ => hc.remove
  have hadded : (later.added.foldl ChangeSet.add
      (later.removed.foldl ChangeSet.remove c)).InOrder :=
    List.foldlRecOn _ _ hremoved fun c hc id _ => hc.add
  have hmodified : (later.modified.foldl ChangeSet.modify (later.added.foldl ChangeSet.add
      (later.removed.foldl ChangeSet.remove c))).InOrder :=
    List.foldlRecOn _ _ hadded fun c hc id _ => hc.modify
  exact ⟨hmodified.added, hmodified.removed⟩

theorem inOrder_between (older newer : ModuleGraph) : (between older newer).InOrder :=
  ⟨newer.pairwise_ids.filter _, older.pairwise_ids.filter _⟩

theorem mem_added_iff : id ∈ (between older newer).added ↔
    older.hash? id = none ∧ newer.hash? id ≠ none := by
  rw [mem_added_between, ← Option.ne_none_iff_exists', ModuleGraph.hash?, ModuleGraph.hash?, ne_eq,
    ne_eq, Option.map_eq_none_iff, Option.map_eq_none_iff]

theorem mem_removed_iff : id ∈ (between older newer).removed ↔
    older.hash? id ≠ none ∧ newer.hash? id = none := by
  rw [mem_removed_between, ← Option.ne_none_iff_exists', ModuleGraph.hash?, ModuleGraph.hash?, ne_eq,
    ne_eq, Option.map_eq_none_iff, Option.map_eq_none_iff]

theorem mem_modified_iff : id ∈ (between older newer).modified ↔
    older.hash? id ≠ none ∧ newer.hash? id ≠ none ∧ older.hash? id ≠ newer.hash? id := by
  rw [mem_modified_between, ModuleGraph.hash?, ModuleGraph.hash?]
  cases older.module? id <;> cases newer.module? id <;> simp

/-- Ids of some modules of a graph, as they are met, are all different. -/
theorem nodup_filterMap_modules (g : ModuleGraph) {pick : Module → Option ModuleId}
    (hpick : ∀ m a, pick m = some a → m.id = a) : (g.modules.filterMap pick).Nodup := by
  have hids : g.modules.Pairwise fun m m' => m.id ≠ m'.id :=
    g.inOrder.imp ModuleId.ne_of_lt
  apply List.Pairwise.filterMap pick ?_ hids
  intro m m' hne a ha b hb
  rw [← hpick m a ha, ← hpick m' b hb]
  exact hne

/-- Modified modules are listed in the order of the newer snapshot, each once. -/
theorem nodup_modified_between (older newer : ModuleGraph) :
    (between older newer).modified.Nodup := by
  apply nodup_filterMap_modules
  intro m a ha
  split at ha
  · split at ha
    · cases ha
    · exact Option.some.inj ha
  · cases ha

/-- Folding the differences between two snapshots changes what is told about a module as its content
changed. -/
theorem told_absorb_between :
    (c.absorb (between mid newer)).told x = (c.told x).next (mid.hash? x) (newer.hash? x) := by
  have hremoved : (between mid newer).removed.Nodup :=
    (inOrder_between mid newer).removed.imp ModuleId.ne_of_lt
  have hadded : (between mid newer).added.Nodup :=
    (inOrder_between mid newer).added.imp ModuleId.ne_of_lt
  have hmodified := nodup_modified_between mid newer
  have htold : (c.absorb (between mid newer)).told x =
      ((between mid newer).modified.foldl ChangeSet.modify
        ((between mid newer).added.foldl ChangeSet.add
          ((between mid newer).removed.foldl ChangeSet.remove c))).told x := rfl
  rw [htold, told_foldl (fun _ _ _ => told_modify) hmodified,
    told_foldl (fun _ _ _ => told_add) hadded, told_foldl (fun _ _ _ => told_remove) hremoved]
  -- a module is in at most one of the three sets
  simp only [mem_removed_iff, mem_added_iff, mem_modified_iff]
  cases mid.hash? x with
  | none =>
    cases newer.hash? x with
    | none => simp [Told.next]
    | some digest => simp [Told.next]
  | some digest =>
    cases newer.hash? x with
    | none => simp [Told.next]
    | some digest' =>
      by_cases hdigest : digest = digest'
      · simp [Told.next, hdigest]
      · simp [Told.next, hdigest]

/-! ## What is affected -/

theorem mem_affected_between : x ∈ (between older newer).affected ↔
    ∃ s, (newer.hash? s ≠ none ∧ older.hash? s ≠ newer.hash? s) ∧
      Relation.ReflTransGen (fun a b => newer.Imports b a) s x := by
  have hchanged : ∀ s, s ∈ (between older newer).modified ++ (between older newer).added ↔
      newer.hash? s ≠ none ∧ older.hash? s ≠ newer.hash? s := by
    intro s
    rw [List.mem_append, mem_modified_iff, mem_added_iff]
    cases older.hash? s with
    | none => simp [eq_comm]
    | some digest => simp
  show x ∈ newer.ancestors ((between older newer).modified ++ (between older newer).added) ↔ _
  rw [ModuleGraph.mem_ancestors_iff]
  simp only [hchanged]

/-- What imports something affected is affected. -/
theorem mem_affected_of_imports {y : ModuleId} (hy : y ∈ (between older newer).affected)
    (h : newer.Imports x y) : x ∈ (between older newer).affected :=
  ModuleGraph.mem_ancestors_of_imports hy h

/-- A module of the newer snapshot that has changed is affected. -/
theorem mem_affected_of_ne (hnow : newer.hash? x ≠ none)
    (hne : older.hash? x ≠ newer.hash? x) : x ∈ (between older newer).affected :=
  mem_affected_between.2 ⟨x, ⟨hnow, hne⟩, .refl⟩

/-- What is affected between two snapshots is affected before one in the middle or after it. -/
theorem affected_between_subset (hsame : mid.SameImports newer)
    (hx : x ∈ (between older newer).affected) :
    x ∈ (between older mid).affected ∨ x ∈ (between mid newer).affected := by
  obtain ⟨s, ⟨hnow, hne⟩, hpath⟩ := mem_affected_between.1 hx
  clear hx
  -- along the way back from what changed, as long as nothing changed after the middle, the way was
  -- there in the middle
  induction hpath with
  | refl =>
    by_cases hlast : mid.hash? s = newer.hash? s
    · rw [← hlast] at hnow hne
      exact .inl (mem_affected_of_ne hnow hne)
    · exact .inr (mem_affected_of_ne hnow hlast)
  | @tail y z _ himports ih =>
    rcases ih with hy | hy
    · by_cases hlast : mid.hash? z = newer.hash? z
      · exact .inl (mem_affected_of_imports hy (ModuleGraph.imports_of_hash?_eq hsame himports hlast))
      · have hthere : newer.hash? z ≠ none := by
          obtain ⟨m, hm, rfl, -⟩ := himports
          rw [ModuleGraph.hash?_eq_some_iff.2 ⟨m, hm, rfl, rfl⟩]
          exact Option.some_ne_none _
        exact .inr (mem_affected_of_ne hthere hlast)
    · exact .inr (mem_affected_of_imports hy himports)

/-! ## Chains -/

/-- What differences that were folded on the way from one snapshot to another one tell about these
two. -/
structure Covers (older newer : ModuleGraph) (c : ChangeSet) : Prop where
  added : c.added = (between older newer).added
  removed : c.removed = (between older newer).removed
  /-- What is modified is never missed. -/
  modified : (between older newer).modified ⊆ c.modified
  /-- A module that counts as modified is in both. -/
  common : ∀ id ∈ c.modified, id ∈ older.ids ∧ id ∈ newer.ids
  disjoint_added_removed : List.Disjoint c.added c.removed
  disjoint_added_modified : List.Disjoint c.added c.modified
  disjoint_removed_modified : List.Disjoint c.removed c.modified
  /-- What is affected is never missed. -/
  affected : (between older newer).affected ⊆ c.affected

/-- Sets that are found right are apart. -/
theorem covers_of (hadded : c.added = (between older newer).added)
    (hremoved : c.removed = (between older newer).removed)
    (hmodified : (between older newer).modified ⊆ c.modified)
    (hcommon : ∀ id ∈ c.modified, older.hash? id ≠ none ∧ newer.hash? id ≠ none)
    (haffected : (between older newer).affected ⊆ c.affected) : Covers older newer c := by
  have hin : ∀ {g : ModuleGraph} {id : ModuleId}, g.hash? id ≠ none → id ∈ g.ids := by
    intro g id h
    by_contra hid
    exact h (ModuleGraph.hash?_eq_none_iff.2 hid)
  constructor
  case added => exact hadded
  case removed => exact hremoved
  case modified => exact hmodified
  case common => exact fun id hid => ⟨hin (hcommon id hid).1, hin (hcommon id hid).2⟩
  case disjoint_added_removed =>
    rw [hadded, hremoved]
    intro id ha hr
    exact (mem_removed_iff.1 hr).1 (mem_added_iff.1 ha).1
  case disjoint_added_modified =>
    rw [hadded]
    intro id ha hm
    exact (hcommon id hm).1 (mem_added_iff.1 ha).1
  case disjoint_removed_modified =>
    rw [hremoved]
    intro id hr hm
    exact (hcommon id hm).2 (mem_removed_iff.1 hr).2
  case affected => exact haffected

/-- The differences themselves tell what they are. -/
theorem covers_between (older newer : ModuleGraph) : Covers older newer (between older newer) := by
  apply covers_of rfl rfl (List.Subset.refl _) ?_ (List.Subset.refl _)
  intro id hid
  obtain ⟨hold, hnew, -⟩ := mem_modified_iff.1 hid
  exact ⟨hold, hnew⟩

/-- What is told about each module is right. -/
theorem Covers.fits (h : Covers older newer c) (x : ModuleId) :
    (c.told x).Fits (older.hash? x) (newer.hash? x) := by
  constructor
  case added => rw [told, List.contains_iff_mem, h.added, mem_added_iff]
  case removed => rw [told, List.contains_iff_mem, h.removed, mem_removed_iff]
  case modified =>
    intro hold hnew hne
    exact List.contains_iff_mem.2 (h.modified (mem_modified_iff.2 ⟨hold, hnew, hne⟩))
  case common =>
    intro hm
    obtain ⟨hold, hnew⟩ := h.common x (List.contains_iff_mem.1 hm)
    exact ⟨fun hnone => ModuleGraph.hash?_eq_none_iff.1 hnone hold,
      fun hnone => ModuleGraph.hash?_eq_none_iff.1 hnone hnew⟩

/-- Folding in the differences to one more snapshot keeps what is told right. -/
theorem Covers.absorb (h : Covers older mid c) (hsame : mid.SameImports newer) :
    Covers older newer (c.absorb (between mid newer)) := by
  have hfits : ∀ x, ((c.absorb (between mid newer)).told x).Fits (older.hash? x) (newer.hash? x) := by
    intro x
    rw [told_absorb_between]
    exact (h.fits x).next
  have hord : c.InOrder := by
    have hbetween := inOrder_between older mid
    exact ⟨h.added ▸ hbetween.added, h.removed ▸ hbetween.removed⟩
  have hfolded : (c.absorb (between mid newer)).InOrder := hord.absorb _
  have hdirect := inOrder_between older newer
  apply covers_of
  case hadded =>
    -- sets in order are the same when they have the same members
    refine ModuleId.eq_of_mem_iff hfolded.added hdirect.added ?_
    intro id
    rw [mem_added_iff, ← (hfits id).added, told, List.contains_iff_mem]
  case hremoved =>
    refine ModuleId.eq_of_mem_iff hfolded.removed hdirect.removed ?_
    intro id
    rw [mem_removed_iff, ← (hfits id).removed, told, List.contains_iff_mem]
  case hmodified =>
    intro id hid
    obtain ⟨hold, hnew, hne⟩ := mem_modified_iff.1 hid
    exact List.contains_iff_mem.1 ((hfits id).modified hold hnew hne)
  case hcommon =>
    intro id hid
    exact (hfits id).common (List.contains_iff_mem.2 hid)
  case haffected =>
    intro id hid
    rw [mem_affected_absorb]
    rcases affected_between_subset hsame hid with hbefore | hafter
    · exact .inr (h.affected hbefore)
    · exact .inl hafter

/-- Folds the differences from each snapshot of a chain to the next one into a change set. -/
def absorbAll (c : ChangeSet) : (last : ModuleGraph) → List ModuleGraph → ChangeSet
  | _, [] => c
  | last, next :: later => absorbAll (c.absorb (between last next)) next later

theorem Covers.absorbAll (h : Covers older mid c) {later : List ModuleGraph}
    (hsame : (mid :: later).IsChain ModuleGraph.SameImports) :
    Covers older ((mid :: later).getLast (List.cons_ne_nil _ _)) (c.absorbAll mid later) := by
  induction later generalizing mid c with
  | nil => exact h
  | cons next later ih =>
    obtain ⟨hnext, hlater⟩ := List.isChain_cons_cons.1 hsame
    exact ih (h.absorb hnext) hlater

/-- Differences that are folded along a chain of snapshots agree with those between its ends, as long
as a module that keeps its content keeps its resolved imports. -/
theorem covers_absorbAll (first second : ModuleGraph) (later : List ModuleGraph)
    (hsame : (second :: later).IsChain ModuleGraph.SameImports) :
    Covers first ((second :: later).getLast (List.cons_ne_nil _ _))
      ((between first second).absorbAll second later) :=
  (covers_between first second).absorbAll hsame

/-! ## A module that comes back -/

/-- A page with one import. -/
def page (hash target : String) : Module :=
  .draft "main.js" hash [⟨"./part", .static, some ⟨target⟩⟩]

/-- A snapshot of one page. -/
def snapshot (modules : List Module) : ModuleGraph := .ofModules [("main", [⟨"main.js"⟩])] modules

/-- A page imports a module. -/
def origin : ModuleGraph := snapshot [page "p1" "util.js", .draft "util.js" "u1" []]

/-- The module changes. -/
def edited : ModuleGraph := snapshot [page "p1" "util.js", .draft "util.js" "u2" []]

/-- The page imports another module, and the first one is gone. -/
def replaced : ModuleGraph := snapshot [page "p2" "text.js", .draft "text.js" "t1" []]

/-- The first module is back with its first content, and the other one changes. -/
def restored : ModuleGraph :=
  snapshot [page "p2" "text.js", .draft "text.js" "t2" [], .draft "util.js" "u1" []]

/-- The module that came back counts as modified on the way, though it is the same at both ends. -/
theorem covers_absorbAll_origin :
    [edited, replaced, restored].IsChain ModuleGraph.SameImports ∧
      ((between origin edited).absorbAll edited [replaced, restored]).modified =
        [⟨"main.js"⟩, ⟨"util.js"⟩] ∧
      (between origin restored).modified = [⟨"main.js"⟩] ∧
      ((between origin edited).absorbAll edited [replaced, restored]).added = [⟨"text.js"⟩] ∧
      Covers origin restored ((between origin edited).absorbAll edited [replaced, restored]) := by
  have hreplaced : edited.SameImports replaced := by
    unfold ModuleGraph.SameImports
    decide
  have hrestored : replaced.SameImports restored := by
    unfold ModuleGraph.SameImports
    decide
  have hchain : [edited, replaced, restored].IsChain ModuleGraph.SameImports :=
    .cons_cons hreplaced (.cons_cons hrestored (.singleton _))
  exact ⟨hchain, by decide, by decide, by decide,
    covers_absorbAll origin edited [replaced, restored] hchain⟩

end ChangeSet

end Bindery
