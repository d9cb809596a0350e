import Mathlib.Data.List.Perm.Basic
import Mathlib.Data.List.Nodup
import Bindery.Proofs.Graph.Load

/-!
# What a build comes to

The order in which tasks finish is up to the schedule, but what is met on the way is not: the ids
that are taken up are those that chains of imports lead to from the entries, each is taken up once,
and what it adds depends on nothing that happened before. Only the text of a stand-in does depend
on the order, since the first specifier that names it counts.

* `Moves` : the steps of a build, for any schedule.
* `Progress` : what holds at every moment; `Progress.moves` : every step keeps it.
* `Wanted` : the ids that a build takes up; `Progress.mem_done_iff` : at the end all of them are
  done, and nothing else is.
* `exists_progress` : the state in which a build ends.
-/

namespace Bindery

namespace GraphBuilder

variable {b : GraphBuilder} {p : Project} {carry : ModuleId → Option Module}
  {schedule : Schedule} {s s' : State} {id : ModuleId}

/-! ## Steps -/

variable (b p carry) in
/-- The steps of a build, whichever running task the schedule lets finish. -/
inductive Moves : State → State → Prop where
  /-- The first pending id needs no work. -/
  | skip {s : State} {id : ModuleId} {rest : List ModuleId} (hpending : s.pending = id :: rest)
      (hknown : id.isMissing = true ∨ id ∈ s.seen) : Moves s { s with pending := rest }
  | takeOver {s : State} {id : ModuleId} {rest : List ModuleId} {m : Module}
      (hpending : s.pending = id :: rest) (hmissing : id.isMissing = false) (hnew : id ∉ s.seen)
      (hcarry : carry id = some m) : Moves s ({ s with pending := rest }.takeOver id m)
  | begin {s : State} {id : ModuleId} {rest : List ModuleId}
      (hpending : s.pending = id :: rest) (hmissing : id.isMissing = false) (hnew : id ∉ s.seen)
      (hcarry : carry id = none) : Moves s ({ s with pending := rest }.begin id)
  /-- Nothing is pending, and some running task finishes. -/
  | finish {s : State} {id : ModuleId} {others : List ModuleId} (hpending : s.pending = [])
      (hrunning : s.running.Perm (id :: others)) :
      Moves s ({ s with running := others, finished := s.finished + 1 }.finish (b.load p id))

/-- What a schedule picks, and what it leaves. -/
theorem perm_of_pickAt {n : Nat} {running others : List ModuleId}
    (h : pickAt n running = some (id, others)) : running.Perm (id :: others) := by
  rcases Option.map_eq_some_iff.1 h with ⟨id', hid, heq⟩
  rcases Prod.mk.inj heq with ⟨rfl, rfl⟩
  rcases List.getElem?_eq_some_iff.1 hid with ⟨hlt, rfl⟩
  exact (List.getElem_cons_eraseIdx_perm hlt).symm

theorem moves_of_step (h : b.step p carry schedule s = some s') : Moves b p carry s s' := by
  unfold step at h
  split at h
  · next id rest hpending =>
    by_cases hknown : id.isMissing = true ∨ id ∈ s.seen
    · have hc : (id.isMissing || s.seen.contains id) = true := by simpa using hknown
      simp only [hc, if_true, Option.some.injEq] at h
      exact h ▸ .skip hpending hknown
    · have hc : (id.isMissing || s.seen.contains id) = false := by simpa using hknown
      rw [not_or, Bool.not_eq_true] at hknown
      simp only [hc, Bool.false_eq_true, if_false] at h
      cases hcarry : carry id with
      | some m =>
        simp only [hcarry, Option.some.injEq] at h
        exact h ▸ .takeOver hpending hknown.1 hknown.2 hcarry
      | none =>
        simp only [hcarry, Option.some.injEq] at h
        exact h ▸ .begin hpending hknown.1 hknown.2 hcarry
  · next hpending =>
    rcases Option.map_eq_some_iff.1 h with ⟨⟨id, others⟩, hpick, rfl⟩
    exact .finish hpending (perm_of_pickAt hpick)

/-- A build stops only when nothing is left to do. -/
theorem isDone_of_step_eq_none (h : b.step p carry schedule s = none) : s.isDone = true := by
  unfold step at h
  split at h
  · next id rest hpending =>
    dsimp only at h
    split at h
    · simp at h
    · split at h <;> simp at h
  · next hpending =>
    have hpick : pickAt (schedule s.finished) s.running = none := by simpa using h
    -- a schedule picks one of the running tasks while there are any
    have hrunning : s.running = [] := by
      by_contra hne
      have hlt : schedule s.finished % s.running.length < s.running.length :=
        Nat.mod_lt _ (List.length_pos_iff.2 hne)
      simp [pickAt, hlt] at hpick
    simp [State.isDone, hpending, hrunning]

/-- What every step keeps is kept by any number of steps. -/
theorem run_induction {motive : State → Prop} (hmoves : ∀ s s', motive s → Moves b p carry s s' →
    motive s') (fuel : Nat) (h : motive s) : motive (b.run p carry schedule fuel s) := by
  induction fuel generalizing s with
  | zero => exact h
  | succ n ih =>
    unfold run
    split
    · next s' hs => exact ih (hmoves s s' h (moves_of_step hs))
    · exact h

/-! ## What an id adds -/

section

variable (b p carry)

/-- What taking up an id comes to: its module with the failures on the way, or a failure. -/
def outcome (id : ModuleId) : Except GraphError (Module × List GraphError) :=
  match carry id with
  | some m => .ok (m, [])
  | none => b.load p id

/-- The module that an id adds. -/
def met? (id : ModuleId) : Option Module :=
  match b.outcome p carry id with
  | .ok (m, _) => some m
  | .error _ => none

/-- The failures that an id adds. -/
def failures (id : ModuleId) : List GraphError :=
  match b.outcome p carry id with
  | .ok (_, errors) => errors
  | .error e => [e]

/-- The ids that are taken up: those that chains of imports lead to. -/
inductive Wanted (roots : List ModuleId) : ModuleId → Prop where
  | root {id : ModuleId} (hid : id ∈ roots) (hmissing : id.isMissing = false) : Wanted roots id
  | target {id t : ModuleId} {m : Module} (hid : Wanted roots id)
      (hm : b.met? p carry id = some m) (ht : t ∈ m.targets) (hmissing : t.isMissing = false) :
      Wanted roots t

/-- A module that was read asks for a stand-in. Modules that are taken over ask for none. -/
def AsksFor (id t : ModuleId) : Prop :=
  carry id = none ∧ ∃ m, b.met? p carry id = some m ∧ t ∈ m.targets ∧ t.isMissing = true

end

theorem met?_of_carry {m : Module} (h : carry id = some m) : b.met? p carry id = some m := by
  simp [met?, outcome, h]

theorem failures_of_carry {m : Module} (h : carry id = some m) : b.failures p carry id = [] := by
  simp [failures, outcome, h]

/-- A module is taken over or was read. -/
theorem met?_cases {m : Module} (h : b.met? p carry id = some m) :
    carry id = some m ∨ carry id = none ∧ ∃ errors, b.load p id = .ok (m, errors) := by
  cases hcarry : carry id with
  | some m' => exact .inl ((met?_of_carry hcarry).symm.trans h)
  | none =>
    simp only [met?, outcome, hcarry] at h
    cases hload : b.load p id with
    | error e => simp [hload] at h
    | ok found =>
      rcases found with ⟨m', errors⟩
      simp only [hload, Option.some.injEq] at h
      exact .inr ⟨rfl, errors, h ▸ rfl⟩

theorem asksFor_iff {m : Module} {t : ModuleId} (hcarry : carry id = none)
    (hmet : b.met? p carry id = some m) :
    AsksFor b p carry id t ↔ t ∈ m.targets ∧ t.isMissing = true := by
  simp [AsksFor, hcarry, hmet]

/-- What is taken over asks for no stand-in. -/
theorem not_asksFor_of_carry {m : Module} {t : ModuleId} (h : carry id = some m) :
    ¬AsksFor b p carry id t := by
  simp [AsksFor, h]

/-- What adds no module asks for no stand-in. -/
theorem not_asksFor_of_met? {t : ModuleId} (h : b.met? p carry id = none) :
    ¬AsksFor b p carry id t := by
  simp [AsksFor, h]

/-! ## Stand-ins -/

/-- The stand-ins for some ids, each with the specifier that it was first named by. -/
def standIns (named : List (ModuleId × String)) : List Module :=
  named.map fun x => Module.stub x.1 x.2

theorem mem_standIns {named : List (ModuleId × String)} {m : Module} :
    m ∈ standIns named ↔ ∃ x ∈ named, Module.stub x.1 x.2 = m := List.mem_map

/-- What following some imports changes: ids that were found are asked for, and stand-ins are added
for those that were not. -/
structure Follows (imports : List Import) (s s' : State) (named : List (ModuleId × String)) :
    Prop where
  seen : s'.seen.Perm (named.map (·.1) ++ s.seen)
  nodup : s'.seen.Nodup
  modules : s'.modules = s.modules ++ standIns named
  pending : ∃ found, s'.pending = s.pending ++ found ∧ found.length ≤ imports.length ∧
    ∀ t ∈ found, t.isMissing = false ∧ ∃ i ∈ imports, i.resolved = some t
  running : s'.running = s.running
  errors : s'.errors = s.errors
  /-- Stand-ins are for ids that the imports name as missing. -/
  named : ∀ x ∈ named, x.1.isMissing = true ∧ ∃ i ∈ imports, i.resolved = some x.1
  /-- Every target is known or asked for. -/
  known : ∀ i ∈ imports, ∀ t, i.resolved = some t →
    t ∈ s'.seen ∨ t.isMissing = false ∧ t ∈ s'.pending

theorem follows_nil (h : s.seen.Nodup) : Follows [] s s [] where
  seen := .refl _
  nodup := h
  modules := by simp [standIns]
  pending := ⟨[], by simp⟩
  running := rfl
  errors := rfl
  named := by simp
  known := by simp

/-- Following one import. -/
theorem follows_one (i : Import) (h : s.seen.Nodup) :
    ∃ named, Follows [i] s (s.follow i) named := by
  have hkeep : s.follow i = s → (∀ t, i.resolved = some t → t ∈ s.seen) →
      Follows [i] s (s.follow i) [] := by
    intro heq hseen
    rw [heq]
    refine { follows_nil h with pending := ⟨[], by simp⟩, named := by simp, known := ?_ }
    intro j hj t ht
    rw [List.mem_singleton.1 hj] at ht
    exact .inl (hseen t ht)
  cases hi : i.resolved with
  | none => exact ⟨[], hkeep (by simp [State.follow, hi]) (by simp [hi])⟩
  | some t =>
    by_cases hseen : t ∈ s.seen
    · have heq : s.follow i = s := by simp [State.follow, State.addStub, hi, hseen]
      exact ⟨[], hkeep heq fun x hx => by rwa [← Option.some.inj (hi.symm.trans hx)]⟩
    · have hone : ∀ x, i.resolved = some x → x = t := fun x hx =>
        Option.some.inj (hx.symm.trans hi)
      by_cases hmissing : t.isMissing = true
      · have heq : s.follow i = { s with
            seen := t :: s.seen, modules := s.modules ++ [Module.stub t i.specifier] } := by
          simp [State.follow, State.addStub, hi, hseen, hmissing]
        refine ⟨[(t, i.specifier)], ?_⟩
        rw [heq]
        exact
          { seen := .refl _
            nodup := List.nodup_cons.2 ⟨hseen, h⟩
            modules := rfl
            pending := ⟨[], by simp⟩
            running := rfl
            errors := rfl
            named := by simp [hmissing, hi]
            known := by
              intro j hj x hx
              obtain rfl := hone x (List.mem_singleton.1 hj ▸ hx)
              exact .inl List.mem_cons_self }
      · rw [Bool.not_eq_true] at hmissing
        have heq : s.follow i = { s with pending := s.pending ++ [t] } := by
          simp [State.follow, hi, hseen, hmissing]
        refine ⟨[], ?_⟩
        rw [heq]
        exact
          { seen := .refl _
            nodup := h
            modules := by simp [standIns]
            pending := ⟨[t], by simp [hmissing, hi]⟩
            running := rfl
            errors := rfl
            named := by simp
            known := by
              intro j hj x hx
              obtain rfl := hone x (List.mem_singleton.1 hj ▸ hx)
              exact .inr ⟨hmissing, List.mem_append_right _ (List.mem_singleton_self _)⟩ }

theorem Follows.trans {imports more : List Import} {s'' : State}
    {named later : List (ModuleId × String)} (h : Follows imports s s' named)
    (h' : Follows more s' s'' later) : Follows (imports ++ more) s s'' (named ++ later) where
  seen := by
    refine h'.seen.trans ((h.seen.append_left _).trans ?_)
    rw [List.map_append, ← List.append_assoc]
    exact List.perm_append_comm.append_right _
  nodup := h'.nodup
  modules := by
    rw [h'.modules, h.modules, List.append_assoc]
    simp only [standIns, List.map_append]
  pending := by
    rcases h.pending with ⟨found, hfound, hlen, hall⟩
    rcases h'.pending with ⟨found', hfound', hlen', hall'⟩
    refine ⟨found ++ found', by rw [hfound', hfound, List.append_assoc], ?_, ?_⟩
    · simp only [List.length_append]
      omega
    · intro t ht
      rcases List.mem_append.1 ht with ht | ht
      · rcases hall t ht with ⟨hmissing, i, hi, hit⟩
        exact ⟨hmissing, i, List.mem_append_left _ hi, hit⟩
      · rcases hall' t ht with ⟨hmissing, i, hi, hit⟩
        exact ⟨hmissing, i, List.mem_append_right _ hi, hit⟩
  running := h'.running.trans h.running
  errors := h'.errors.trans h.errors
  named := by
    intro x hx
    rcases List.mem_append.1 hx with hx | hx
    · rcases h.named x hx with ⟨hmissing, i, hi, hit⟩
      exact ⟨hmissing, i, List.mem_append_left _ hi, hit⟩
    · rcases h'.named x hx with ⟨hmissing, i, hi, hit⟩
      exact ⟨hmissing, i, List.mem_append_right _ hi, hit⟩
  known := by
    intro i hi t ht
    rcases List.mem_append.1 hi with hi | hi
    · rcases h.known i hi t ht with hs | ⟨hmissing, hp⟩
      · exact .inl (h'.seen.mem_iff.2 (List.mem_append_right _ hs))
      · rcases h'.pending with ⟨found, hfound, -⟩
        exact .inr ⟨hmissing, hfound ▸ List.mem_append_left _ hp⟩
    · exact h'.known i hi t ht

theorem exists_follows (imports : List Import) (h : s.seen.Nodup) :
    ∃ named, Follows imports s (imports.foldl State.follow s) named := by
  induction imports generalizing s with
  | nil => exact ⟨[], follows_nil h⟩
  | cons i r ih =>
    rcases follows_one i h with ⟨named, hone⟩
    rcases ih hone.nodup with ⟨later, hrest⟩
    exact ⟨named ++ later, hone.trans hrest⟩

namespace Follows

variable {m : Module} {imports : List Import} {new : List (ModuleId × String)} {t : ModuleId}

/-- Following imports forgets nothing. -/
theorem mono (h : Follows imports s s' new) (ht : t ∈ s.seen ∨ t ∈ s.pending) :
    t ∈ s'.seen ∨ t ∈ s'.pending := by
  rcases h.pending with ⟨found, hfound, -⟩
  rcases ht with ht | ht
  · exact .inl (h.seen.mem_iff.2 (List.mem_append_right _ ht))
  · exact .inr (hfound ▸ List.mem_append_left _ ht)

/-- New stand-ins are for missing targets. -/
theorem missing_target (h : Follows m.imports s s' new) (ht : t ∈ new.map (·.1)) :
    t ∈ m.targets ∧ t.isMissing = true := by
  rcases List.mem_map.1 ht with ⟨x, hx, rfl⟩
  rcases h.named x hx with ⟨hmissing, i, hi, hit⟩
  exact ⟨Module.mem_targets.2 ⟨i, hi, hit⟩, hmissing⟩

/-- A missing target has a new stand-in or was known before. -/
theorem mem_named_or_mem_seen (h : Follows m.imports s s' new) (ht : t ∈ m.targets)
    (hmissing : t.isMissing = true) : t ∈ new.map (·.1) ∨ t ∈ s.seen := by
  rcases Module.mem_targets.1 ht with ⟨i, hi, hit⟩
  rcases h.known i hi t hit with hs | ⟨hpresent, -⟩
  · exact List.mem_append.1 (h.seen.mem_iff.1 hs)
  · simp [hmissing] at hpresent

end Follows

/-- The end of a task that read a module: the imports are followed, then the module is added. -/
theorem exists_finish_eq (m : Module) (errors : List GraphError) (h : s.seen.Nodup) :
    ∃ s' named, Follows m.imports { s with errors := s.errors ++ errors } s' named ∧
      s.finish (.ok (m, errors)) =
        { s' with modules := s'.modules ++ [m], loaded := s'.loaded + 1 } := by
  rcases exists_follows m.imports h
    (s := { s with errors := s.errors ++ errors }) with ⟨named, hnamed⟩
  exact ⟨_, named, hnamed, rfl⟩

/-! ## Progress -/

/-- A running task that finishes goes over to the ids whose work is over. -/
theorem perm_over {running others done : List ModuleId} (h : running.Perm (id :: others)) :
    (done ++ running).Perm (id :: done ++ others) :=
  (h.append_left done).trans List.perm_middle

theorem mem_running_of_mem_others {running others : List ModuleId} {t : ModuleId}
    (h : running.Perm (id :: others)) (ht : t ∈ others) : t ∈ running :=
  h.mem_iff.2 (List.mem_cons_of_mem id ht)

/-- What holds at every moment of a build. `done` lists the ids whose work is over, `named` the
stand-ins with what they were first named by. -/
structure Progress (b : GraphBuilder) (p : Project) (carry : ModuleId → Option Module)
    (start : State) (done : List ModuleId) (named : List (ModuleId × String)) (s : State) :
    Prop where
  seen : s.seen.Perm (named.map (·.1) ++ (done ++ s.running))
  nodup : s.seen.Nodup
  modules : s.modules.Perm (standIns named ++ done.filterMap (b.met? p carry))
  errors : s.errors.Perm (start.errors ++ done.flatMap (b.failures p carry))
  present : ∀ id ∈ done ++ s.running, id.isMissing = false
  uncarried : ∀ id ∈ s.running, carry id = none
  wanted : ∀ id ∈ done ++ s.running ++ s.pending, id.isMissing = false →
    Wanted b p carry start.pending id
  roots : ∀ id ∈ start.pending, id.isMissing = false → id ∈ s.seen ∨ id ∈ s.pending
  followed : ∀ id ∈ done, ∀ m, b.met? p carry id = some m → ∀ t ∈ m.targets,
    t.isMissing = false → t ∈ s.seen ∨ t ∈ s.pending
  missing : ∀ x ∈ named, x.1.isMissing = true
  asked : ∀ t, t ∈ named.map (·.1) ↔ t ∈ start.seen ∨ ∃ id ∈ done, AsksFor b p carry id t

variable {start : State} {done : List ModuleId} {named : List (ModuleId × String)}

namespace Progress

theorem skip (h : Progress b p carry start done named s) {rest : List ModuleId}
    (hpending : s.pending = id :: rest) (hknown : id.isMissing = true ∨ id ∈ s.seen) :
    Progress b p carry start done named { s with pending := rest } := by
  have hkeep : ∀ t, t.isMissing = false → t ∈ s.seen ∨ t ∈ s.pending → t ∈ s.seen ∨ t ∈ rest := by
    intro t hmissing ht
    rw [hpending, List.mem_cons] at ht
    rcases ht with ht | rfl | ht
    · exact .inl ht
    · rcases hknown with hm | hs
      · simp [hmissing] at hm
      · exact .inl hs
    · exact .inr ht
  refine { h with wanted := ?_, roots := ?_, followed := ?_ }
  · intro t ht
    refine h.wanted t ?_
    simp only [hpending, List.mem_append, List.mem_cons] at ht ⊢
    exact ht.imp_right .inr
  · exact fun t ht hmissing => hkeep t hmissing (h.roots t ht hmissing)
  · exact fun x hx m hm t ht hmissing => hkeep t hmissing (h.followed x hx m hm t ht hmissing)

/-- What is known as missing has a stand-in. -/
theorem mem_named (h : Progress b p carry start done named s) {t : ModuleId} (ht : t ∈ s.seen)
    (hmissing : t.isMissing = true) : t ∈ named.map (·.1) := by
  rcases List.mem_append.1 (h.seen.mem_iff.1 ht) with ht | ht
  · exact ht
  · simp [h.present t ht] at hmissing

/-- Failures are counted with those of the id that they are from. -/
theorem perm_errors (h : Progress b p carry start done named s) (errors : List GraphError) :
    (s.errors ++ errors).Perm
      (start.errors ++ (errors ++ done.flatMap (b.failures p carry))) := by
  refine (h.errors.append_right errors).trans ?_
  rw [List.append_assoc]
  exact List.perm_append_comm.append_left _

/-- An id that asks for no stand-in changes nothing about those that were asked for. -/
theorem asked_cons (h : Progress b p carry start done named s) {t : ModuleId}
    (hno : ¬AsksFor b p carry id t) :
    t ∈ named.map (·.1) ↔ t ∈ start.seen ∨ ∃ x ∈ id :: done, AsksFor b p carry x t := by
  rw [h.asked t, List.exists_mem_cons_iff, or_iff_right hno]

theorem takeOver (h : Progress b p carry start done named s) {rest : List ModuleId} {m : Module}
    (hpending : s.pending = id :: rest) (hmissing : id.isMissing = false) (hnew : id ∉ s.seen)
    (hcarry : carry id = some m) :
    Progress b p carry start (id :: done) named ({ s with pending := rest }.takeOver id m) where
  seen := by
    refine (h.seen.cons id).trans ?_
    exact List.perm_middle.symm
  nodup := List.nodup_cons.2 ⟨hnew, h.nodup⟩
  modules := by
    simp only [State.takeOver, List.filterMap_cons, met?_of_carry hcarry]
    exact ((h.modules.append_right [m]).trans (List.perm_append_singleton _ _)).trans
      List.perm_middle.symm
  errors := by
    simp only [State.takeOver, List.flatMap_cons, failures_of_carry hcarry, List.nil_append]
    exact h.errors
  present := by
    intro t ht
    rcases List.mem_cons.1 ht with rfl | ht
    · exact hmissing
    · exact h.present t ht
  uncarried := h.uncarried
  wanted := by
    have hid : Wanted b p carry start.pending id := h.wanted id (by simp [hpending]) hmissing
    intro t ht hmt
    -- new among the pending ids are the targets of the module that is taken over
    simp only [State.takeOver, Module.map_fst_dependencies, List.cons_append, List.mem_cons,
      List.mem_append] at ht
    rcases ht with rfl | (ht | ht) | ht | ht
    · exact hid
    · exact h.wanted t (by simp [ht]) hmt
    · exact h.wanted t (by simp [ht]) hmt
    · exact h.wanted t (by simp [hpending, ht]) hmt
    · exact hid.target (met?_of_carry hcarry) ht hmt
  roots := by
    intro t ht hmt
    have := h.roots t ht hmt
    simp only [hpending, State.takeOver, List.mem_cons, List.mem_append] at this ⊢
    tauto
  followed := by
    intro x hx m' hm' t ht hmt
    rcases List.mem_cons.1 hx with rfl | hx
    · -- its own targets have just become pending
      obtain rfl := Option.some.inj (hm'.symm.trans (met?_of_carry hcarry))
      refine .inr (List.mem_append_right _ ?_)
      exact Module.map_fst_dependencies m' ▸ ht
    · have := h.followed x hx m' hm' t ht hmt
      simp only [hpending, State.takeOver, List.mem_cons, List.mem_append] at this ⊢
      tauto
  missing := h.missing
  asked := fun _ => h.asked_cons (not_asksFor_of_carry hcarry)

theorem begin (h : Progress b p carry start done named s) {rest : List ModuleId}
    (hpending : s.pending = id :: rest) (hmissing : id.isMissing = false) (hnew : id ∉ s.seen)
    (hcarry : carry id = none) :
    Progress b p carry start done named ({ s with pending := rest }.begin id) where
  seen := by
    refine (h.seen.cons id).trans ?_
    simp only [State.begin, ← List.append_assoc]
    exact (List.perm_append_singleton id _).symm
  nodup := List.nodup_cons.2 ⟨hnew, h.nodup⟩
  modules := h.modules
  errors := h.errors
  present := by
    intro t ht
    simp only [State.begin, List.mem_append, List.mem_singleton] at ht
    rcases ht with ht | ht | rfl
    · exact h.present t (List.mem_append_left _ ht)
    · exact h.present t (List.mem_append_right _ ht)
    · exact hmissing
  uncarried := by
    intro t ht
    rcases List.mem_append.1 ht with ht | ht
    · exact h.uncarried t ht
    · exact List.mem_singleton.1 ht ▸ hcarry
  wanted := by
    intro t ht
    refine h.wanted t ?_
    simp only [State.begin, hpending, List.mem_append, List.mem_cons, List.not_mem_nil,
      or_false] at ht ⊢
    tauto
  roots := by
    intro t ht hmt
    have := h.roots t ht hmt
    simp only [hpending, State.begin, List.mem_cons] at this ⊢
    tauto
  followed := by
    intro x hx m hm t ht hmt
    have := h.followed x hx m hm t ht hmt
    simp only [hpending, State.begin, List.mem_cons] at this ⊢
    tauto
  missing := h.missing
  asked := h.asked

/-- A task that fails adds its failure. -/
theorem finish_error (h : Progress b p carry start done named s) {others : List ModuleId}
    {e : GraphError} (hrunning : s.running.Perm (id :: others)) (hload : b.load p id = .error e) :
    Progress b p carry start (id :: done) named
      ({ s with running := others, finished := s.finished + 1 }.finish (.error e)) := by
  have hid : id ∈ s.running := hrunning.mem_iff.2 List.mem_cons_self
  have houtcome : b.outcome p carry id = .error e := by simp [outcome, h.uncarried id hid, hload]
  have hmet : b.met? p carry id = none := by simp [met?, houtcome]
  have hall : (done ++ s.running).Perm (id :: done ++ others) := perm_over hrunning
  exact
    { seen := h.seen.trans (hall.append_left _)
      nodup := h.nodup
      modules := by simpa [State.finish, List.filterMap_cons, hmet] using h.modules
      errors := by
        simp only [State.finish, List.flatMap_cons, failures, houtcome]
        exact h.perm_errors [e]
      present := fun t ht => h.present t (hall.mem_iff.2 ht)
      uncarried := fun t ht => h.uncarried t (mem_running_of_mem_others hrunning ht)
      wanted := by
        intro t ht
        refine h.wanted t ?_
        rw [List.mem_append] at ht ⊢
        exact ht.imp_left hall.mem_iff.2
      roots := h.roots
      followed := by
        intro x hx m hm
        rcases List.mem_cons.1 hx with rfl | hx
        · simp [hmet] at hm
        · exact h.followed x hx m hm
      missing := h.missing
      asked := fun _ => h.asked_cons (not_asksFor_of_met? hmet) }

/-- A task that succeeds adds its module and asks for what the imports name. -/
theorem finish_ok (h : Progress b p carry start done named s) {others : List ModuleId} {m : Module}
    {errors : List GraphError} {new : List (ModuleId × String)} (hpending : s.pending = [])
    (hrunning : s.running.Perm (id :: others)) (hload : b.load p id = .ok (m, errors))
    (hnew : Follows m.imports
      { s with running := others, finished := s.finished + 1, errors := s.errors ++ errors }
      s' new) :
    Progress b p carry start (id :: done) (new ++ named)
      { s' with modules := s'.modules ++ [m], loaded := s'.loaded + 1 } := by
  have hid : id ∈ s.running := hrunning.mem_iff.2 List.mem_cons_self
  have hcarry : carry id = none := h.uncarried id hid
  have houtcome : b.outcome p carry id = .ok (m, errors) := by simp [outcome, hcarry, hload]
  have hmet : b.met? p carry id = some m := by simp [met?, houtcome]
  have hall : (done ++ s.running).Perm (id :: done ++ others) := perm_over hrunning
  have hwanted : Wanted b p carry start.pending id :=
    h.wanted id (by simp [hid]) (h.present id (by simp [hid]))
  rcases hnew.pending with ⟨found, hfound, -, hfoundAll⟩
  simp only [hpending, List.nil_append] at hfound
  exact
    { seen := by
        have hseen : s'.seen.Perm (new.map (·.1) ++ (named.map (·.1) ++ (id :: done ++ others))) :=
          hnew.seen.trans ((h.seen.trans (hall.append_left _)).append_left _)
        simpa only [hnew.running, List.map_append, List.append_assoc] using hseen
      nodup := hnew.nodup
      modules := by
        simp only [hnew.modules, standIns, List.map_append, List.filterMap_cons, hmet]
        have hold := h.modules.append_right (new.map fun x => Module.stub x.1 x.2)
        refine (List.perm_append_singleton m _).trans ((hold.cons m).trans ?_)
        refine List.Perm.trans ?_ List.perm_middle.symm
        refine List.Perm.cons m (List.perm_append_comm.trans ?_)
        rw [standIns, List.append_assoc]
      errors := by
        simp only [hnew.errors, List.flatMap_cons, failures, houtcome]
        exact h.perm_errors errors
      present := by
        intro t ht
        rw [hnew.running] at ht
        exact h.present t (hall.mem_iff.2 ht)
      uncarried := by
        intro t ht
        rw [hnew.running] at ht
        exact h.uncarried t (mem_running_of_mem_others hrunning ht)
      wanted := by
        intro t ht hmt
        rw [hnew.running, hfound, List.mem_append] at ht
        rcases ht with ht | ht
        · exact h.wanted t (List.mem_append_left _ (hall.mem_iff.2 ht)) hmt
        · rcases hfoundAll t ht with ⟨-, i, hi, hit⟩
          exact hwanted.target hmet (Module.mem_targets.2 ⟨i, hi, hit⟩) hmt
      roots := fun t ht hmt => hnew.mono (h.roots t ht hmt)
      followed := by
        intro x hx m' hm' t ht hmt
        rcases List.mem_cons.1 hx with rfl | hx
        · obtain rfl := Option.some.inj (hm'.symm.trans hmet)
          rcases Module.mem_targets.1 ht with ⟨i, hi, hit⟩
          exact (hnew.known i hi t hit).imp_right And.right
        · exact hnew.mono (h.followed x hx m' hm' t ht hmt)
      missing := by
        intro x hx
        rcases List.mem_append.1 hx with hx | hx
        · exact (hnew.named x hx).1
        · exact h.missing x hx
      asked := by
        intro t
        rw [List.map_append, List.mem_append, List.exists_mem_cons_iff, asksFor_iff hcarry hmet,
          or_left_comm, ← h.asked t]
        constructor
        · exact Or.imp_left hnew.missing_target
        · rintro (⟨ht, hmissing⟩ | ht)
          · -- a stand-in that was there before was asked for before
            exact (hnew.mem_named_or_mem_seen ht hmissing).imp_right fun hs =>
              h.mem_named hs hmissing
          · exact .inr ht }

/-- A task that finishes is done. -/
theorem finish (h : Progress b p carry start done named s) {others : List ModuleId}
    (hpending : s.pending = []) (hrunning : s.running.Perm (id :: others)) :
    ∃ named', Progress b p carry start (id :: done) named'
      ({ s with running := others, finished := s.finished + 1 }.finish (b.load p id)) := by
  match hload : b.load p id with
  | .error e => exact ⟨named, h.finish_error hrunning hload⟩
  | .ok (m, errors) =>
    rcases exists_finish_eq m errors h.nodup
      (s := { s with running := others, finished := s.finished + 1 }) with ⟨s', new, hnew, heq⟩
    rw [heq]
    exact ⟨new ++ named, h.finish_ok hpending hrunning hload hnew⟩

/-- Every step keeps what holds of a build. -/
theorem moves (h : Progress b p carry start done named s) (hmove : Moves b p carry s s') :
    ∃ done' named', Progress b p carry start done' named' s' := by
  cases hmove with
  | skip hpending hknown => exact ⟨_, _, h.skip hpending hknown⟩
  | takeOver hpending hmissing hnew hcarry =>
    exact ⟨_, _, h.takeOver hpending hmissing hnew hcarry⟩
  | begin hpending hmissing hnew hcarry => exact ⟨_, _, h.begin hpending hmissing hnew hcarry⟩
  | finish hpending hrunning => exact ⟨_, h.finish hpending hrunning⟩

/-- When nothing is left to do, the ids that are done are the wanted ones. -/
theorem mem_done_iff (h : Progress b p carry start done named s) (hend : s.isDone = true) :
    id ∈ done ↔ Wanted b p carry start.pending id := by
  simp only [State.isDone, Bool.and_eq_true, List.isEmpty_iff] at hend
  -- nothing is pending or running, so what was met is done or has a stand-in
  have hseen : ∀ t, t.isMissing = false → t ∈ s.seen ∨ t ∈ s.pending → t ∈ done := by
    intro t hmissing ht
    have hs : t ∈ s.seen := by simpa [hend.1] using ht
    have hmem := h.seen.mem_iff.1 hs
    simp only [hend.2, List.append_nil, List.mem_append] at hmem
    refine hmem.resolve_left ?_
    intro hnamed
    rcases List.mem_map.1 hnamed with ⟨x, hx, rfl⟩
    simp [h.missing x hx] at hmissing
  constructor
  · intro hid
    exact h.wanted id (by simp [hid]) (h.present id (by simp [hid]))
  · intro hwanted
    -- along the chain of imports that leads to the id
    induction hwanted with
    | root hid hmissing => exact hseen _ hmissing (h.roots _ hid hmissing)
    | target _ hm ht hmissing ih => exact hseen _ hmissing (h.followed _ ih _ hm _ ht hmissing)

theorem nodup_done (h : Progress b p carry start done named s) : done.Nodup := by
  have := h.seen.nodup_iff.1 h.nodup
  exact ((List.nodup_append.1 (List.nodup_append.1 this).2.1)).1

theorem nodup_named (h : Progress b p carry start done named s) : (named.map (·.1)).Nodup :=
  (List.nodup_append.1 (h.seen.nodup_iff.1 h.nodup)).1

end Progress

/-! ## From the entries to the end -/

/-- What holds while entries are looked up. `listed` holds the ids that they came to. -/
structure Started (s : State) (listed : List ModuleId) (named : List (ModuleId × String)) :
    Prop where
  seen : s.seen.Perm (named.map (·.1))
  nodup : s.seen.Nodup
  modules : s.modules = standIns named
  running : s.running = []
  missing : ∀ x ∈ named, x.1.isMissing = true
  listed : ∀ id ∈ listed, id ∈ s.pending ∨ id ∈ s.seen

variable {listed ids : List ModuleId}

theorem Started.addStub (h : Started s listed named) (hmissing : id.isMissing = true)
    (specifier : String) : ∃ named', Started (s.addStub id specifier) (listed ++ [id]) named' := by
  by_cases hseen : id ∈ s.seen
  · have heq : s.addStub id specifier = s := by simp [State.addStub, hseen]
    rw [heq]
    refine ⟨named, { h with listed := ?_ }⟩
    intro t ht
    rcases List.mem_append.1 ht with ht | ht
    · exact h.listed t ht
    · exact .inr (List.mem_singleton.1 ht ▸ hseen)
  · have heq : s.addStub id specifier = { s with
        seen := id :: s.seen, modules := s.modules ++ [Module.stub id specifier] } := by
      simp [State.addStub, hseen]
    rw [heq]
    refine ⟨named ++ [(id, specifier)], ?_⟩
    exact
      { seen := by
          rw [List.map_append]
          exact (h.seen.cons id).trans (List.perm_append_singleton id _).symm
        nodup := List.nodup_cons.2 ⟨hseen, h.nodup⟩
        modules := by simp [h.modules, standIns]
        running := h.running
        missing := by
          intro x hx
          rcases List.mem_append.1 hx with hx | hx
          · exact h.missing x hx
          · exact List.mem_singleton.1 hx ▸ hmissing
        listed := by
          intro t ht
          rcases List.mem_append.1 ht with ht | ht
          · exact (h.listed t ht).imp_right (List.mem_cons_of_mem _)
          · exact .inr (List.mem_singleton.1 ht ▸ List.mem_cons_self) }

theorem Started.startEntry (h : Started s (listed ++ ids) named) (specifier : String) :
    ∃ named', Started (b.startEntry p (s, ids) specifier).1
      (listed ++ (b.startEntry p (s, ids) specifier).2) named' := by
  unfold GraphBuilder.startEntry
  split
  · next id hid =>
    refine ⟨named, { h with listed := ?_ }⟩
    intro t ht
    rw [← List.append_assoc, List.mem_append, List.mem_singleton] at ht
    rcases ht with ht | rfl
    · exact (h.listed t ht).imp_left (List.mem_append_left _)
    · exact .inl (List.mem_append_right _ (List.mem_singleton_self _))
  · next e he =>
    split
    · rcases h.addStub (ModuleId.isMissing_missing specifier none) specifier with ⟨named', h'⟩
      rw [List.append_assoc] at h'
      exact ⟨named', { h' with }⟩
    · exact ⟨named, { h with }⟩

theorem Started.foldl_startEntry (specifiers : List String) (h : Started s (listed ++ ids) named) :
    ∃ named', Started (specifiers.foldl (b.startEntry p) (s, ids)).1
      (listed ++ (specifiers.foldl (b.startEntry p) (s, ids)).2) named' := by
  induction specifiers generalizing s ids named with
  | nil => exact ⟨named, h⟩
  | cons specifier r ih =>
    rcases h.startEntry (b := b) (p := p) specifier with ⟨named', h'⟩
    rw [List.foldl_cons]
    generalize b.startEntry p (s, ids) specifier = found at h' ⊢
    exact ih h'

theorem Started.declareEntry {made : EntryMap ModuleId}
    (h : Started s (made.flatMap (·.2)) named) (entry : String × List String) :
    ∃ named', Started (b.declareEntry p (s, made) entry).1
      ((b.declareEntry p (s, made) entry).2.flatMap (·.2)) named' := by
  rw [← List.append_nil (made.flatMap (·.2))] at h
  rcases h.foldl_startEntry (b := b) (p := p) entry.2 with ⟨named', h'⟩
  refine ⟨named', ?_⟩
  unfold GraphBuilder.declareEntry
  rw [List.flatMap_append, List.flatMap_singleton]
  exact h'

theorem Started.foldl_declareEntry (entries : EntryMap String) (made : EntryMap ModuleId)
    (h : Started s (made.flatMap (·.2)) named) :
    ∃ named', Started (entries.foldl (b.declareEntry p) (s, made)).1
      ((entries.foldl (b.declareEntry p) (s, made)).2.flatMap (·.2)) named' := by
  -- what the entries before came to is general, so that the entries can be taken one by one
  induction entries generalizing s made named with
  | nil => exact ⟨named, h⟩
  | cons entry r ih =>
    rcases h.declareEntry (b := b) (p := p) entry with ⟨named', h'⟩
    rw [List.foldl_cons]
    generalize b.declareEntry p (s, made) entry = found at h' ⊢
    exact ih found.2 h'

theorem started_nil : Started {} [] [] where
  seen := .refl _
  nodup := List.nodup_nil
  modules := rfl
  running := rfl
  missing := by simp
  listed := by simp

/-- The state from which modules are loaded. -/
theorem exists_started (b : GraphBuilder) (p : Project) (entries : EntryMap String) :
    ∃ named, Started (b.start p entries).1 ((b.start p entries).2.flatMap (·.2)) named :=
  started_nil.foldl_declareEntry entries []

theorem Started.progress (h : Started s listed named) (p : Project)
    (carry : ModuleId → Option Module) : Progress b p carry s [] named s where
  seen := by simpa [h.running] using h.seen
  nodup := h.nodup
  modules := by simp [h.modules]
  errors := by simp
  present := by simp [h.running]
  uncarried := by simp [h.running]
  wanted := by
    intro id hid hmissing
    exact .root (by simpa [h.running] using hid) hmissing
  roots := fun id hid _ => .inr hid
  followed := by simp
  missing := h.missing
  asked := by
    intro t
    simp [h.seen.mem_iff]

/-- What holds when a build stops. -/
theorem exists_progress (b : GraphBuilder) (p : Project) (entries : EntryMap String)
    (carry : ModuleId → Option Module) (schedule : Schedule) (fuel : Nat) :
    ∃ done named, Progress b p carry (b.start p entries).1 done named
      (b.run p carry schedule fuel (b.start p entries).1) := by
  rcases exists_started b p entries with ⟨named, hstart⟩
  refine run_induction (motive := fun s =>
    ∃ done named, Progress b p carry (b.start p entries).1 done named s) ?_ fuel ?_
  · rintro s s' ⟨done, named, h⟩ hmove
    exact h.moves hmove
  · exact ⟨[], named, hstart.progress p carry⟩

end GraphBuilder

end Bindery
