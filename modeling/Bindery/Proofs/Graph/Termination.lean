import Bindery.Proofs.Graph.Run

/-!
# Every build below an absolute root ends

An id is taken up once, and the ids that can be taken up are few: those that are pending at the
start, those that the earlier graph names, and those of the files that are there. So the steps that
a build is given are enough.

* `Confined` : what can be taken up, and how many imports each module has.
* `Confined.work_lt` : every step leaves less to do.
* `isDone_run` : a build below an absolute root comes to its end.
-/

namespace Bindery

namespace GraphBuilder

variable {b : GraphBuilder} {p : Project} {carry : ModuleId → Option Module}
  {schedule : Schedule} {s s' : State} {pool : List ModuleId} {most : Nat}

/-- Modules ask for ids of a pool only, and each for at most so many. -/
structure Confined (b : GraphBuilder) (p : Project) (carry : ModuleId → Option Module)
    (pool : List ModuleId) (most : Nat) : Prop where
  length_le : ∀ id m, b.met? p carry id = some m → m.imports.length ≤ most
  mem_pool : ∀ id m, b.met? p carry id = some m → ∀ t ∈ m.targets, t.isMissing = false → t ∈ pool

/-- What can be pending. -/
def State.Within (s : State) (pool : List ModuleId) : Prop :=
  ∀ id ∈ s.pending, id.isMissing = false → id ∈ pool

/-- The ids of a pool that have not been taken up. -/
def unseen (pool seen : List ModuleId) : Nat := pool.countP fun id => !seen.contains id

/-- How much is left to do, when each id of a pool can ask for at most so many others. -/
def State.work (s : State) (pool : List ModuleId) (most : Nat) : Nat :=
  s.pending.length + (most + 1) * s.running.length + (most + 2) * unseen pool s.seen

theorem unseen_mono {seen seen' : List ModuleId} (h : seen ⊆ seen') :
    unseen pool seen' ≤ unseen pool seen := by
  refine List.countP_mono_left ?_
  intro id _ hid
  simp only [Bool.not_eq_true', ← Bool.not_eq_true, List.contains_iff_mem] at hid ⊢
  exact fun hseen => hid (h hseen)

/-- Taking up an id of the pool leaves one less. -/
theorem unseen_cons_lt {seen : List ModuleId} {id : ModuleId} (hid : id ∈ pool) (hnew : id ∉ seen) :
    unseen pool (id :: seen) < unseen pool seen := by
  induction pool with
  | nil => simp at hid
  | cons x r ih =>
    -- the pool can list an id more than once, so one that was found can come again
    have hcons : ∀ seen, unseen (x :: r) seen =
        unseen r seen + if x ∈ seen then 0 else 1 := by
      intro seen
      by_cases hx : x ∈ seen <;> simp [unseen, hx]
    have hle : unseen r (id :: seen) ≤ unseen r seen := unseen_mono (List.subset_cons_self _ _)
    rw [hcons, hcons]
    by_cases hx : x = id
    · subst hx
      simp only [List.mem_cons_self, if_true, hnew, if_false]
      omega
    · have hlt := ih ((List.mem_cons.1 hid).resolve_left (Ne.symm hx))
      have hsame : (x ∈ id :: seen) ↔ x ∈ seen := by simp [hx]
      simp only [hsame]
      omega

/-- Taking up an id of the pool pays so much for each id that is unseen. -/
theorem mul_unseen_cons_le {seen : List ModuleId} {id : ModuleId} (k : Nat) (hid : id ∈ pool)
    (hnew : id ∉ seen) : k * unseen pool (id :: seen) + k ≤ k * unseen pool seen := by
  have hlt := Nat.mul_le_mul_left k (Nat.succ_le_of_lt (unseen_cons_lt hid hnew))
  rwa [Nat.mul_succ] at hlt

namespace Confined

/-- The end of a task leaves less to do, and only ids of the pool pending. -/
theorem finish_work_lt (h : Confined b p carry pool most) {id : ModuleId} {others : List ModuleId}
    (hnodup : s.seen.Nodup) (hcarry : carry id = none) (hpending : s.pending = [])
    (hrunning : s.running.Perm (id :: others))
    (hnext : { s with running := others, finished := s.finished + 1 }.finish (b.load p id) = s') :
    s'.Within pool ∧ s'.work pool most < s.work pool most := by
  have hlen : s.running.length = others.length + 1 := hrunning.length_eq
  subst hnext
  cases hload : b.load p id with
  | error e =>
    refine ⟨?_, ?_⟩
    · simp [State.Within, State.finish, hpending]
    · simp only [State.work, State.finish, hpending, hlen, Nat.mul_add, Nat.mul_one]
      omega
  | ok found =>
    rcases found with ⟨m, errors⟩
    have hmet : b.met? p carry id = some m := by simp [met?, outcome, hcarry, hload]
    rcases exists_finish_eq m errors hnodup
      (s := { s with running := others, finished := s.finished + 1 }) with ⟨s', new, hnew, heq⟩
    rcases hnew.pending with ⟨asked, hasked, haskedLen, haskedAll⟩
    simp only [hpending, List.nil_append] at hasked
    rw [heq]
    refine ⟨?_, ?_⟩
    · intro t ht hmt
      rw [hasked] at ht
      rcases haskedAll t ht with ⟨-, i, hi, hit⟩
      exact h.mem_pool id m hmet t (Module.mem_targets.2 ⟨i, hi, hit⟩) hmt
    · -- one task less is running, which pays for what its module asks for
      have hmost := h.length_le id m hmet
      have hseen : unseen pool s'.seen ≤ unseen pool s.seen :=
        unseen_mono fun t ht => hnew.seen.mem_iff.2 (List.mem_append_right _ ht)
      have := Nat.mul_le_mul_left (most + 2) hseen
      simp only [State.work, hasked, hnew.running, hpending, hlen, Nat.mul_add, Nat.mul_one,
        List.length_nil]
      omega

/-- Every step leaves less to do, and only ids of the pool pending. -/
theorem work_lt (h : Confined b p carry pool most) (hwithin : s.Within pool) (hnodup : s.seen.Nodup)
    (huncarried : ∀ id ∈ s.running, carry id = none)
    (hmove : Moves b p carry s s') : s'.Within pool ∧ s'.work pool most < s.work pool most := by
  cases hmove with
  | @skip id rest hpending hknown =>
    refine ⟨?_, ?_⟩
    · exact fun t ht => hwithin t (hpending ▸ List.mem_cons_of_mem _ ht)
    · simp only [State.work, hpending, List.length_cons]
      omega
  | @takeOver id rest m hpending hmissing hnew hcarry =>
    have hmet : b.met? p carry id = some m := met?_of_carry hcarry
    have hid : id ∈ pool := hwithin id (by simp [hpending]) hmissing
    -- one id less is unseen, which pays for at most so many pending targets
    have hpaid := mul_unseen_cons_le (most + 2) hid hnew
    have hlen : m.targets.length ≤ most :=
      Nat.le_trans (List.length_filterMap_le _ _) (h.length_le id m hmet)
    refine ⟨?_, ?_⟩
    · intro t ht hmt
      simp only [State.takeOver, Module.map_fst_dependencies, List.mem_append] at ht
      rcases ht with ht | ht
      · exact hwithin t (hpending ▸ List.mem_cons_of_mem _ ht) hmt
      · exact h.mem_pool id m hmet t ht hmt
    · simp only [State.work, State.takeOver, Module.map_fst_dependencies, hpending,
        List.length_append, List.length_cons]
      omega
  | @begin id rest hpending hmissing hnew hcarry =>
    -- one id less is unseen, which pays for one more running task
    have hid : id ∈ pool := hwithin id (by simp [hpending]) hmissing
    have hpaid := mul_unseen_cons_le (most + 2) hid hnew
    refine ⟨?_, ?_⟩
    · exact fun t ht => hwithin t (hpending ▸ List.mem_cons_of_mem _ ht)
    · simp only [State.work, State.begin, hpending, List.length_append, List.length_cons,
        List.length_nil, Nat.mul_add, Nat.mul_zero, Nat.mul_one]
      omega
  | @finish id others hpending hrunning =>
    have hcarry : carry id = none := huncarried id (hrunning.mem_iff.2 List.mem_cons_self)
    exact h.finish_work_lt hnodup hcarry hpending hrunning rfl

/-- With more steps than there is left to do, a build comes to its end. -/
theorem isDone_run (h : Confined b p carry pool most) {start : State} {fuel : Nat}
    (hprogress : ∃ done named, Progress b p carry start done named s) (hwithin : s.Within pool)
    (hfuel : s.work pool most < fuel) : (b.run p carry schedule fuel s).isDone = true := by
  induction fuel generalizing s with
  | zero => omega
  | succ n ih =>
    unfold run
    split
    · next s' hs =>
      rcases hprogress with ⟨done, named, hnow⟩
      have hmove := moves_of_step hs
      rcases h.work_lt hwithin hnow.nodup hnow.uncarried hmove with ⟨hwithin', hlt⟩
      exact ih (hnow.moves hmove) hwithin' (by omega)
    · next hnone => exact isDone_of_step_eq_none hnone

end Confined

/-! ## Enough steps -/

theorem le_total_of_mem {n : Nat} {l : List Nat} (h : n ∈ l) : n ≤ total l := by
  induction l with
  | nil => simp at h
  | cons k r ih =>
    rw [total]
    rcases List.mem_cons.1 h with rfl | h
    · exact Nat.le_add_right _ _
    · exact Nat.le_trans (ih h) (Nat.le_add_left _ _)

theorem length_flatMap_targets_le (modules : List Module) :
    (modules.flatMap Module.targets).length ≤ total (modules.map (·.imports.length)) := by
  induction modules with
  | nil => simp
  | cons m r ih =>
    rw [List.flatMap_cons, List.length_append, List.map_cons, total]
    exact Nat.add_le_add (List.length_filterMap_le _ _) ih

/-- The modules of an earlier graph. -/
def earlier (previous : Option ModuleGraph) : List Module := (previous.map (·.modules)).getD []

/-- The ids that a build can take up. -/
def candidates (b : GraphBuilder) (p : Project) (previous : Option ModuleGraph)
    (pending : List ModuleId) : List ModuleId :=
  pending ++ (earlier previous).flatMap Module.targets
    ++ p.files.files.filterMap fun f => ModuleId.ofLocation? b.lookup.root f.1

/-- The most imports that a module can have. -/
def mostImports (p : Project) (previous : Option ModuleGraph) : Nat :=
  total (p.files.files.map fun f => 4 * f.2.size)
    + total ((earlier previous).map (·.imports.length))

theorem length_candidates_le (b : GraphBuilder) (p : Project) (previous : Option ModuleGraph)
    (pending : List ModuleId) :
    (b.candidates p previous pending).length ≤ pending.length + p.files.files.length
      + total ((earlier previous).map (·.imports.length)) := by
  have hfiles := List.length_filterMap_le
    (fun f : Location × ByteArray => ModuleId.ofLocation? b.lookup.root f.1) p.files.files
  have htargets := length_flatMap_targets_le (earlier previous)
  simp only [candidates, List.length_append]
  omega

variable {previous : Option ModuleGraph}

theorem mem_earlier_of_carried? {reload : List ModuleId} {id : ModuleId} {m : Module}
    (h : carried? previous reload id = some m) : m ∈ earlier previous ∧ m.id = id := by
  unfold carried? at h
  split at h
  · simp at h
  · rcases Option.bind_eq_some_iff.1 h with ⟨g, rfl, hm⟩
    exact ⟨List.mem_of_find?_eq_some hm, by simpa using List.find?_some hm⟩

/-- Below an absolute root, only files and what the earlier graph names can be asked for. -/
theorem confined (hroot : Path.isAbsolute b.lookup.root = true) (reload : List ModuleId)
    (pending : List ModuleId) :
    Confined b p (carried? previous reload) (b.candidates p previous pending)
      (mostImports p previous) := by
  -- a module comes from the earlier graph or from a file
  have hcases : ∀ id m, b.met? p (carried? previous reload) id = some m →
      m ∈ earlier previous ∨ ∃ errors, b.load p id = .ok (m, errors) := fun id m hm =>
    (met?_cases hm).imp (fun hcarry => (mem_earlier_of_carried? hcarry).1) And.right
  constructor
  · intro id m hm
    unfold mostImports
    rcases hcases id m hm with hearlier | ⟨errors, hload⟩
    · have hle : m.imports.length ≤ total ((earlier previous).map (·.imports.length)) :=
        le_total_of_mem (List.mem_map_of_mem hearlier)
      omega
    · rcases exists_length_imports_le_of_load hload with ⟨f, hf, hle⟩
      have hsum : 4 * f.2.size ≤ total (p.files.files.map fun f => 4 * f.2.size) :=
        le_total_of_mem (List.mem_map_of_mem hf)
      omega
  · intro id m hm t ht hmissing
    simp only [candidates, List.mem_append, List.mem_flatMap, List.mem_filterMap]
    rcases hcases id m hm with hearlier | ⟨errors, hload⟩
    · exact .inl (.inr ⟨m, hearlier, ht⟩)
    · exact .inr (exists_file_of_mem_targets hroot hload ht hmissing)

/-- Below an absolute root every build comes to its end, whatever the earlier graph is and in
whatever order tasks finish. -/
theorem isDone_run (hroot : Path.isAbsolute b.lookup.root = true) (schedule : Schedule)
    (p : Project) (entries : EntryMap String) (previous : Option ModuleGraph)
    (reload : List ModuleId) :
    (b.run p (carried? previous reload) schedule
      (stepBound p previous (b.start p entries).1.pending.length)
      (b.start p entries).1).isDone = true := by
  rcases exists_started b p entries with ⟨named, hstart⟩
  refine (confined hroot reload (b.start p entries).1.pending).isDone_run
    ⟨[], named, hstart.progress p _⟩ ?_ ?_
  · intro id hid _
    simp only [candidates, List.mem_append]
    exact .inl (.inl hid)
  · have hpool := length_candidates_le b p previous (b.start p entries).1.pending
    have hunseen : unseen (b.candidates p previous (b.start p entries).1.pending)
          (b.start p entries).1.seen ≤
        (b.candidates p previous (b.start p entries).1.pending).length :=
      List.countP_le_length
    have hbound := Nat.mul_le_mul_right (mostImports p previous + 2)
      (Nat.le_trans hunseen hpool)
    simp only [State.work, hstart.running, List.length_nil, Nat.mul_zero, Nat.add_zero]
    rw [Nat.mul_comm]
    unfold stepBound
    exact Nat.lt_succ_of_le (Nat.add_le_add_left hbound _)

end GraphBuilder

end Bindery
