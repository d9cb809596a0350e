import Bindery.Session.Batch

/-!
# Gathering loses nothing

A gatherer stands between whoever reports changes and whoever takes batches, and anything may happen
between two of its turns. What came in is at each time cut into stretches: one for each batch that
went out, one for the batch that is open, and what is not read yet. Nothing but a turn moves a path from
one stretch to the next, so there is nothing that could get lost between them.

Once no more paths come, a gatherer that gets to run and has room comes to its end: each of its turns
brings it closer.

* `Gatherer.Accounts` : the stretches, kept by every step and so by every run.
* `Gatherer.work` : what is left to do, less after every turn that is not in vain.
* `Gatherer.run_cuts` : batches of a run, at any time and at the end.
* `Batch.gather_isCut` : the same when each batch is taken at once.
-/

namespace Bindery

namespace Batch

/-! ## Paths of a batch -/

/-- The paths, each as it was written first. Paths with the same components are the same. -/
def distinct : List String → List String
  | [] => []
  | p :: r => p :: (distinct r).filter fun q => Path.components q != Path.components p

/-- Paths that are noted one after the other are noted once each. -/
theorem note_distinct (paths : List String) (path : String) :
    note (distinct paths) path = distinct (paths ++ [path]) := by
  induction paths with
  | nil => rfl
  | cons p r ih =>
    rw [List.cons_append, distinct, distinct, ← ih, note, note, List.any_cons, List.any_filter]
    by_cases hsame : Path.components p = Path.components path
    · cases (distinct r).any fun q => Path.components q == Path.components path <;> simp [hsame]
    · have hkept : ((distinct r).any fun q => Path.components q != Path.components p &&
          Path.components q == Path.components path) =
            (distinct r).any fun q => Path.components q == Path.components path := by
        refine List.any_congr rfl fun q => ?_
        by_cases hq : Path.components q = Path.components path
        · simp [hq, Ne.symm hsame]
        · simp [hq]
      rw [hkept]
      cases (distinct r).any fun q => Path.components q == Path.components path <;>
        simp [hsame, Ne.symm hsame]

/-- Batches that name the paths of consecutive stretches of what came in, none of them empty. -/
def IsCut (paths : List String) (batches : List (List String)) : Prop :=
  ∃ segments : List (List String),
    segments.flatten = paths ∧ [] ∉ segments ∧ batches = segments.map distinct

end Batch

namespace Gatherer

variable {window room : Nat} {s : Gatherer} {served : Bool} {events : List Event}

/-! ## What a turn can do -/

/-- What comes of a turn. A turn is in vain only where it is not served, where nothing can be read and
more may come, where there is no room, and at the end. -/
inductive Turns (window room : Nat) (s : Gatherer) (served : Bool) : Gatherer → Prop where
  /-- A path opens a batch. -/
  | begin {path : String} {rest : List String} : s.phase = .resting →
      s.incoming = path :: rest → Turns window room s served
        { s with incoming := rest, phase := .opened (s.now + window * Batch.windowLimit) [path] }
  /-- No path is left to open another batch. -/
  | finish : s.phase = .resting → s.incoming = [] → s.closed = true →
      Turns window room s served { s with phase := .done }
  /-- There is time for another path. -/
  | wait {deadline till : Nat} {paths : List String} : s.phase = .opened deadline paths →
      Turns window room s served { s with phase := .waiting deadline till paths }
  /-- There is none. -/
  | refuse {deadline : Nat} {paths : List String} : s.phase = .opened deadline paths →
      Turns window room s served { s with phase := .sending paths false }
  /-- A path joins the open batch. -/
  | join {deadline till : Nat} {paths : List String} {path : String} {rest : List String} :
      s.phase = .waiting deadline till paths → s.incoming = path :: rest →
      Turns window room s served
        { s with incoming := rest, phase := .opened deadline (Batch.note paths path) }
  /-- The time for another path is over. -/
  | expire {deadline till : Nat} {paths : List String} :
      s.phase = .waiting deadline till paths →
      Turns window room s served { s with phase := .sending paths false }
  /-- No other path can join. -/
  | conclude {deadline till : Nat} {paths : List String} :
      s.phase = .waiting deadline till paths → s.incoming = [] → s.closed = true →
      Turns window room s served { s with phase := .sending paths true }
  /-- The batch goes out. -/
  | send {paths : List String} {last : Bool} : s.phase = .sending paths last →
      s.hungUp = false → s.outgoing.length < room →
      Turns window room s served
        { s with outgoing := s.outgoing ++ [paths], phase := if last then .done else .resting }
  /-- Nobody takes the batch. -/
  | giveUp {paths : List String} {last : Bool} : s.phase = .sending paths last →
      s.hungUp = true → Turns window room s served { s with phase := .done }
  | rest : (served = true → s.closed = true → s.outgoing.length < room → s.phase = .done) →
      Turns window room s served s

theorem incoming_of_read_path {path : String} {rest : List String}
    (h : s.read served = .path path rest) : s.incoming = path :: rest := by
  cases served with
  | false => nomatch h
  | true =>
    cases hin : s.incoming with
    | nil => cases hclosed : s.closed <;> simp [read, hin, hclosed] at h
    | cons p r => simpa [read, hin] using h

theorem closed_of_read_ended (h : s.read served = .ended) : s.incoming = [] ∧ s.closed = true := by
  cases served with
  | false => nomatch h
  | true =>
    cases hin : s.incoming with
    | nil => cases hclosed : s.closed <;> simp [read, hin, hclosed] at h ⊢
    | cons p r => simp [read, hin] at h

/-- Where a read that is served gives nothing, more can come. -/
theorem closed_of_read_pending (h : s.read true = .pending) : s.closed = false := by
  cases hin : s.incoming with
  | nil => cases hclosed : s.closed <;> simp [read, hin, hclosed] at h ⊢
  | cons p r => simp [read, hin] at h

theorem turn_turns (window room : Nat) (s : Gatherer) (served : Bool) :
    Turns window room s served (s.turn window room served) := by
  have hpending : s.read served = .pending → served = true → s.closed = true →
      s.outgoing.length < room → s.phase = .done := by
    rintro hread rfl hclosed -
    rw [closed_of_read_pending hread] at hclosed
    cases hclosed
  cases hphase : s.phase with
  | resting =>
    cases hread : s.read served with
    | path path rest =>
      simp only [turn, hphase, hread]
      exact .begin hphase (incoming_of_read_path hread)
    | ended =>
      obtain ⟨hnone, hclosed⟩ := closed_of_read_ended hread
      simp only [turn, hphase, hread]
      exact .finish hphase hnone hclosed
    | pending =>
      simp only [turn, hphase, hread]
      exact .rest (hpending hread)
  | opened deadline paths =>
    simp only [turn, hphase]
    split
    · exact .refuse hphase
    · exact .wait hphase
  | waiting deadline till paths =>
    cases hread : s.read served with
    | path path rest =>
      simp only [turn, hphase, hread]
      exact .join hphase (incoming_of_read_path hread)
    | ended =>
      obtain ⟨hnone, hclosed⟩ := closed_of_read_ended hread
      simp only [turn, hphase, hread]
      exact .conclude hphase hnone hclosed
    | pending =>
      simp only [turn, hphase, hread]
      split
      · exact .expire hphase
      · exact .rest (hpending hread)
  | sending paths last =>
    simp only [turn, hphase]
    split
    · exact .giveUp hphase ‹_›
    · rename_i hlistens
      split
      · rename_i hroom
        rw [Bool.and_eq_true, decide_eq_true_eq] at hroom
        exact .send hphase (Bool.eq_false_iff.2 hlistens) hroom.2
      · rename_i hfull
        refine .rest fun hserved _ hroom => absurd ?_ hfull
        rw [hserved, decide_eq_true hroom]
        rfl
  | done =>
    simp only [turn, hphase]
    exact .rest fun _ _ _ => hphase

/-- A turn does not touch what whoever is at the two ends decides. -/
theorem Turns.keeps_ends {s' : Gatherer} (h : Turns window room s served s') :
    s'.closed = s.closed ∧ s'.hungUp = s.hungUp := by
  cases h <;> exact ⟨rfl, rfl⟩

/-! ## Runs -/

theorem run_cons (e : Event) :
    s.run window room (e :: events) = (s.step window room e).run window room events :=
  rfl

theorem run_append (later : List Event) : s.run window room (events ++ later) =
    (s.run window room events).run window room later :=
  List.foldl_append

theorem closed_step (e : Event) :
    (s.step window room e).closed = true ↔ s.closed = true ∨ e = .close := by
  cases e with
  | clock time => simp [step]
  | arrive path =>
    rw [step]
    split <;> simp
  | close => simp [step]
  | turn served =>
    rw [step, (turn_turns window room s served).keeps_ends.1]
    simp
  | take => cases hout : s.outgoing <;> simp [step, hout]
  | hangUp => simp [step]

theorem hungUp_step {e : Event} (hopen : s.hungUp = false) (he : e ≠ .hangUp) :
    (s.step window room e).hungUp = false := by
  cases e with
  | clock time => exact hopen
  | arrive path =>
    rw [step]
    split <;> exact hopen
  | close => exact hopen
  | turn served => rw [step, (turn_turns window room s served).keeps_ends.2, hopen]
  | take => cases hout : s.outgoing <;> simpa [step, hout] using hopen
  | hangUp => exact absurd rfl he

theorem closed_run : (s.run window room events).closed = true ↔ s.closed = true ∨ .close ∈ events := by
  induction events generalizing s with
  | nil => simp [run]
  | cons e events ih => rw [run_cons, ih, closed_step, List.mem_cons, or_assoc, eq_comm (a := e)]

/-! ## Stretches of what came in -/

/-- The batches that went out, those first that were taken. -/
def batches (s : Gatherer) : List (List String) := s.received.map (·.paths) ++ s.outgoing

/-- The paths that come before the stream closes, in order. -/
def arrivals : List Event → List String
  | [] => []
  | .arrive path :: events => path :: arrivals events
  | .close :: _ => []
  | _ :: events => arrivals events

/-- The open batch names the paths of a stretch. -/
def Phase.Names (segment : List String) : Phase → Prop
  | .resting | .done => segment = []
  | .opened _ paths | .waiting _ _ paths | .sending paths _ =>
    segment ≠ [] ∧ paths = Batch.distinct segment

/-- No other batch is opened. -/
def Phase.IsLast : Phase → Prop
  | .sending _ true | .done => True
  | _ => False

/-- What came in is cut into stretches: one for each batch that went out, one for the open batch, and
what is not read yet. -/
structure Accounts (s : Gatherer) (paths : List String) (segments : List (List String))
    (current : List String) : Prop where
  whole : segments.flatten ++ current ++ s.incoming = paths
  nonempty : [] ∉ segments
  sent : s.batches = segments.map Batch.distinct
  current : s.phase.Names current
  ended : s.phase.IsLast → s.closed = true ∧ s.incoming = []

/-- What came in is cut into stretches in some way. -/
def Accounted (s : Gatherer) (paths : List String) : Prop :=
  ∃ segments current, s.Accounts paths segments current

variable {paths : List String} {segments : List (List String)} {current : List String}

theorem accounted_start : Accounted {} [] := ⟨[], [], rfl, List.not_mem_nil, rfl, rfl, nofun⟩

theorem Accounts.names {phase : Phase} (h : s.Accounts paths segments current)
    (hphase : s.phase = phase) : phase.Names current :=
  hphase ▸ h.current

/-- Where only the phase changes, the stretches stay. -/
theorem Accounts.setPhase {phase phase' : Phase} (h : s.Accounts paths segments current)
    (hphase : s.phase = phase) (hnames : phase.Names current → phase'.Names current)
    (hended : phase'.IsLast → s.closed = true ∧ s.incoming = []) :
    Accounts { s with phase := phase' } paths segments current :=
  ⟨h.whole, h.nonempty, h.sent, hnames (h.names hphase), hended⟩

/-- Between two turns no path is outside of the stretches. -/
theorem Accounts.turns {s' : Gatherer} (h : s.Accounts paths segments current)
    (hopen : s.hungUp = false) (hturn : Turns window room s served s') : s'.Accounted paths := by
  cases hturn with
  | @begin path rest hphase hin =>
    refine ⟨segments, [path], ?_, h.nonempty, h.sent, ⟨List.cons_ne_nil path [], rfl⟩, nofun⟩
    have hnone : current = [] := h.names hphase
    rw [← h.whole, hnone, hin, List.append_nil, List.append_assoc]
    rfl
  | finish hphase hin hclosed =>
    exact ⟨segments, current, h.setPhase hphase id fun _ => ⟨hclosed, hin⟩⟩
  | wait hphase => exact ⟨segments, current, h.setPhase hphase id nofun⟩
  | @join deadline till paths path rest hphase hin =>
    obtain ⟨-, hpaths⟩ := h.names hphase
    refine ⟨segments, current ++ [path], ?_, h.nonempty, h.sent, ⟨by simp, ?_⟩, nofun⟩
    · rw [← h.whole, hin]
      simp
    · rw [hpaths, Batch.note_distinct]
  | refuse hphase => exact ⟨segments, current, h.setPhase hphase id nofun⟩
  | expire hphase => exact ⟨segments, current, h.setPhase hphase id nofun⟩
  | conclude hphase hin hclosed =>
    exact ⟨segments, current, h.setPhase hphase id fun _ => ⟨hclosed, hin⟩⟩
  | @send paths last hphase _ _ =>
    obtain ⟨hsome, hpaths⟩ := h.names hphase
    refine ⟨segments ++ [current], [], ?_, ?_, ?_, ?_, ?_⟩
    · rw [← h.whole]
      simp
    · rw [List.mem_append, List.mem_singleton]
      exact not_or.2 ⟨h.nonempty, hsome.symm⟩
    · rw [List.map_append, ← h.sent, List.map_singleton, ← hpaths]
      exact (List.append_assoc _ _ _).symm
    · cases last <;> rfl
    · cases last with
      | false => nofun
      | true => exact fun _ => h.ended (by rw [hphase]; trivial)
  | giveUp _ hhungUp =>
    rw [hopen] at hhungUp
    cases hhungUp
  | rest => exact ⟨segments, current, h⟩

/-- The paths that can still come in. -/
def admitted (s : Gatherer) (events : List Event) : List String :=
  if s.closed then [] else arrivals events

theorem admitted_cons (window room : Nat) (s : Gatherer) (e : Event) (events : List Event) :
    s.admitted (e :: events) = s.admitted [e] ++ (s.step window room e).admitted events := by
  cases hclosed : s.closed with
  | true =>
    have hstays : (s.step window room e).closed = true := closed_step e |>.2 (.inl hclosed)
    simp [admitted, hclosed, hstays]
  | false =>
    by_cases he : e = .close
    · subst he
      simp [admitted, hclosed, arrivals, Gatherer.step]
    · have hstays : (s.step window room e).closed = false := by
        rw [Bool.eq_false_iff, Ne, closed_step, hclosed]
        simp [he]
      simp only [admitted, hclosed, hstays]
      cases e with
      | close => exact absurd rfl he
      | _ => rfl

theorem admitted_eq_nil (s : Gatherer) (h : arrivals events = []) : s.admitted events = [] := by
  rw [admitted, h, ite_self]

theorem Accounted.step {e : Event} (h : s.Accounted paths) (hopen : s.hungUp = false)
    (he : e ≠ .hangUp) : (s.step window room e).Accounted (paths ++ s.admitted [e]) := by
  obtain ⟨segments, current, h⟩ := h
  cases e with
  | clock time =>
    rw [s.admitted_eq_nil rfl, List.append_nil]
    exact ⟨segments, current, h.whole, h.nonempty, h.sent, h.current, h.ended⟩
  | arrive path =>
    cases hclosed : s.closed with
    | true =>
      rw [admitted, if_pos hclosed, List.append_nil, Gatherer.step, hclosed, Bool.true_or, if_pos rfl]
      exact ⟨segments, current, h⟩
    | false =>
      have hgoes : s.phase ≠ .done := by
        intro hdone
        have hlast := (h.ended (hdone ▸ trivial)).1
        rw [hclosed] at hlast
        cases hlast
      have hlast : ¬ s.phase.IsLast := fun hlast => by
        rw [(h.ended hlast).1] at hclosed
        cases hclosed
      rw [admitted, hclosed, Gatherer.step, if_neg (by simp [hclosed, hgoes])]
      refine ⟨segments, current, ?_, h.nonempty, h.sent, h.current, fun hended => absurd hended hlast⟩
      rw [← h.whole, ← List.append_assoc]
      rfl
  | close =>
    rw [s.admitted_eq_nil rfl, List.append_nil]
    exact ⟨segments, current, h.whole, h.nonempty, h.sent, h.current,
      fun hlast => ⟨rfl, (h.ended hlast).2⟩⟩
  | turn served =>
    rw [s.admitted_eq_nil rfl, List.append_nil]
    exact h.turns hopen (turn_turns window room s served)
  | take =>
    rw [s.admitted_eq_nil rfl, List.append_nil, Gatherer.step]
    cases hout : s.outgoing with
    | nil => exact ⟨segments, current, h⟩
    | cons paths rest =>
      refine ⟨segments, current, h.whole, h.nonempty, ?_, h.current, h.ended⟩
      rw [← h.sent, batches, batches, hout, List.map_append, List.append_assoc]
      rfl
  | hangUp => exact absurd rfl he

/-- Whatever happens while batches are taken, nothing that comes in is lost. -/
theorem Accounted.run (h : s.Accounted paths) (hopen : s.hungUp = false)
    (hevents : .hangUp ∉ events) :
    (s.run window room events).Accounted (paths ++ s.admitted events) := by
  induction events generalizing s paths with
  | nil => rwa [s.admitted_eq_nil rfl, List.append_nil]
  | cons e events ih =>
    obtain ⟨he, hlater⟩ := List.ne_and_not_mem_of_not_mem_cons hevents
    rw [run_cons, admitted_cons window room, ← List.append_assoc]
    exact ih (h.step hopen he.symm) (hungUp_step hopen he.symm) hlater

theorem accounted_run (hevents : .hangUp ∉ events) :
    (run window room {} events).Accounted (arrivals events) :=
  accounted_start.run rfl hevents

/-! ## What is left to do -/

/-- How many turns it takes at most until nothing is left to do. -/
def work (s : Gatherer) : Nat :=
  match s.phase with
  | .done => 0
  | .resting => 4 * s.incoming.length + 1
  | .sending _ _ => 4 * s.incoming.length + 2
  | .waiting _ _ _ => 4 * s.incoming.length + 3
  | .opened _ _ => 4 * s.incoming.length + 4

theorem work_eq_zero : s.work = 0 ↔ s.phase = .done := by
  cases hphase : s.phase <;> simp [work, hphase]

theorem work_le : s.work ≤ 4 * s.incoming.length + 4 := by
  cases hphase : s.phase <;> simp only [work, hphase] <;> omega

/-- Each turn leaves less to do, unless it is in vain. -/
theorem Turns.work_lt {s' : Gatherer} (h : Turns window room s served s') :
    s'.work < s.work ∨ s' = s ∧
      (served = true → s.closed = true → s.outgoing.length < room → s.phase = .done) := by
  cases h with
  | begin hphase hin => left; simp only [work, hphase, hin, List.length_cons]; omega
  | finish hphase => left; simp only [work, hphase]; omega
  | wait hphase => left; simp only [work, hphase]; omega
  | join hphase hin => left; simp only [work, hphase, hin, List.length_cons]; omega
  | refuse hphase => left; simp only [work, hphase]; omega
  | expire hphase => left; simp only [work, hphase]; omega
  | conclude hphase => left; simp only [work, hphase]; omega
  | @send paths last hphase => left; cases last <;> simp [work, hphase]
  | giveUp hphase => left; simp only [work, hphase]; omega
  | rest hvain => exact .inr ⟨rfl, hvain⟩

/-- After the stream closed nothing makes more to do. -/
theorem work_step_le (hclosed : s.closed = true) (e : Event) :
    (s.step window room e).work ≤ s.work := by
  cases e with
  | arrive path => simp [step, hclosed]
  | turn served =>
    obtain hless | ⟨hsame, -⟩ := (turn_turns window room s served).work_lt
    · exact Nat.le_of_lt hless
    · exact Nat.le_of_eq (congrArg work hsame)
  | take =>
    rw [step]
    cases s.outgoing <;> exact Nat.le_refl _
  | _ => exact Nat.le_refl _

theorem work_run_le (hclosed : s.closed = true) : (s.run window room events).work ≤ s.work := by
  induction events generalizing s with
  | nil => exact Nat.le_refl _
  | cons e events ih =>
    exact Nat.le_trans (ih (closed_step e |>.2 (.inl hclosed))) (work_step_le hclosed e)

/-- Only a turn that leaves less to do lets more batches wait, and no more than there is room for. -/
theorem outgoing_step (window room : Nat) (s : Gatherer) (e : Event) :
    (s.step window room e).outgoing.length ≤ s.outgoing.length ∨
      (s.step window room e).outgoing.length ≤ room ∧ (s.step window room e).work < s.work := by
  cases e with
  | turn served =>
    have hturn := turn_turns window room s served
    rw [step]
    obtain hless | ⟨hsame, -⟩ := hturn.work_lt
    · generalize s.turn window room served = s' at hturn hless ⊢
      cases hturn with
      | send _ _ hroom => exact .inr ⟨by rwa [List.length_append], hless⟩
      | _ => exact .inl (Nat.le_refl _)
    · exact .inl (Nat.le_of_eq (congrArg (·.outgoing.length) hsame))
  | arrive path =>
    left
    rw [step]
    split <;> exact Nat.le_refl _
  | take => left; cases hout : s.outgoing <;> simp [step, hout]
  | hangUp => exact .inl (Nat.zero_le _)
  | _ => exact .inl (Nat.le_refl _)

theorem outgoing_run_le (h : s.outgoing.length ≤ room) :
    (s.run window room events).outgoing.length ≤ room := by
  induction events generalizing s with
  | nil => exact h
  | cons e events ih =>
    refine ih ?_
    obtain hless | ⟨hroom, -⟩ := outgoing_step window room s e
    · exact Nat.le_trans hless h
    · exact hroom

/-- A gatherer that gets to run at some time after there is room leaves less to do. -/
theorem work_run_lt (window : Nat) (hclosed : s.closed = true) (hroom : s.outgoing.length < room)
    (hserved : .turn true ∈ events) :
    (s.run window room events).work < s.work ∨ (s.run window room events).work = 0 := by
  induction events generalizing s with
  | nil => nomatch hserved
  | cons e events ih =>
    have hstays : (s.step window room e).closed = true := closed_step e |>.2 (.inl hclosed)
    have hle : (s.run window room (e :: events)).work ≤ (s.step window room e).work :=
      work_run_le hstays
    obtain rfl | hlater := List.mem_cons.1 hserved
    · obtain hless | ⟨hsame, hvain⟩ := (turn_turns window room s true).work_lt
      · exact .inl (Nat.lt_of_le_of_lt hle hless)
      · have hdone : s.work = 0 := work_eq_zero.2 (hvain rfl hclosed hroom)
        rw [step, hsame, hdone] at hle
        exact .inr (Nat.le_zero.1 hle)
    · -- Either there still is room, or the room was taken by a batch that went out.
      obtain hout | ⟨-, hless⟩ := outgoing_step window room s e
      · exact (ih hstays (Nat.lt_of_le_of_lt hout hroom) hlater).imp_left fun hless =>
          Nat.lt_of_lt_of_le hless (work_step_le hclosed e)
      · exact .inl (Nat.lt_of_le_of_lt hle hless)

/-- A batch is taken, and then the gatherer gets to run. Anything may happen between, before and after
that. -/
def IsRound (events : List Event) : Prop := [.take, .turn true].Sublist events

theorem length_outgoing_take (window room : Nat) (s : Gatherer) :
    (s.step window room .take).outgoing.length = s.outgoing.length - 1 := by
  cases hout : s.outgoing <;> simp [step, hout]

/-- A round leaves less to do. -/
theorem work_round (hclosed : s.closed = true) (hout : s.outgoing.length ≤ room) (hroom : 0 < room)
    (hround : IsRound events) : (s.run window room events).work ≤ s.work - 1 := by
  change ([Event.take] ++ [Event.turn true]).Sublist events at hround
  obtain ⟨before, after, rfl, htake, hserved⟩ := List.append_sublist_iff.1 hround
  obtain ⟨early, late, rfl⟩ := List.append_of_mem (List.singleton_sublist.1 htake)
  rw [List.append_assoc, run_append, List.cons_append, run_cons]
  have hstays : (s.run window room early).closed = true := closed_run.2 (.inl hclosed)
  have hearly : (s.run window room early).work ≤ s.work := work_run_le hclosed
  have htaken : ((s.run window room early).step window room .take).work ≤
      (s.run window room early).work := work_step_le hstays .take
  have hfree : ((s.run window room early).step window room .take).outgoing.length < room := by
    have hwait : (s.run window room early).outgoing.length ≤ room := outgoing_run_le hout
    rw [length_outgoing_take]
    omega
  have hrun : .turn true ∈ late ++ after :=
    List.mem_append_right late (List.singleton_sublist.1 hserved)
  have hless := work_run_lt window (closed_step .take |>.2 (.inl hstays)) hfree hrun
  omega

theorem work_rounds {rounds : List (List Event)} (hclosed : s.closed = true)
    (hout : s.outgoing.length ≤ room) (hroom : 0 < room) (hrounds : ∀ round ∈ rounds, IsRound round) :
    (s.run window room rounds.flatten).work ≤ s.work - rounds.length := by
  induction rounds generalizing s with
  | nil => exact Nat.le_refl _
  | cons round rounds ih =>
    obtain ⟨hround, hrounds⟩ := List.forall_mem_cons.1 hrounds
    have hfirst : (s.run window room round).work ≤ s.work - 1 :=
      work_round hclosed hout hroom hround
    rw [List.flatten_cons, run_append, List.length_cons]
    have hrest : ((s.run window room round).run window room rounds.flatten).work ≤
        (s.run window room round).work - rounds.length :=
      ih (closed_run.2 (.inl hclosed)) (outgoing_run_le hout) hrounds
    omega

/-! ## Batches of a run -/

theorem Accounted.isCut_of_done (h : s.Accounted paths) (hdone : s.phase = .done) :
    Batch.IsCut paths s.batches := by
  obtain ⟨segments, current, h⟩ := h
  have hread : s.incoming = [] := (h.ended (hdone ▸ trivial)).2
  have hnone : current = [] := h.names hdone
  have hwhole := h.whole
  rw [hread, hnone, List.append_nil, List.append_nil] at hwhole
  exact ⟨segments, hwhole, h.nonempty, h.sent⟩

/-- As long as nobody hangs up, and however arrivals, timers and turns fall between each other, the
batches that went out name the paths of consecutive stretches of what came in, in order, from the first
path on; what follows is named by the open batch or not read yet. A gatherer comes to its end only after
no more paths can come, and then the stretches are all that came in, with the last batch sent. And it
comes to its end, wherever batches are taken and it gets to run often enough. -/
theorem run_cuts (window room : Nat) (events : List Event) (hopen : .hangUp ∉ events) :
    (∃ sent current, sent ++ current ++ (run window room {} events).incoming = arrivals events ∧
      Batch.IsCut sent (run window room {} events).batches ∧
      (run window room {} events).phase.Names current) ∧
    ((run window room {} events).phase = .done →
      .close ∈ events ∧ Batch.IsCut (arrivals events) (run window room {} events).batches) ∧
    (0 < room → .close ∈ events → ∀ rounds : List (List Event), (∀ round ∈ rounds, IsRound round) →
      4 * (arrivals events).length + 4 ≤ rounds.length →
        (run window room {} (events ++ rounds.flatten)).phase = .done) := by
  have haccounted : (run window room {} events).Accounted (arrivals events) := accounted_run hopen
  have ⟨segments, current, h⟩ := haccounted
  refine ⟨⟨segments.flatten, current, h.whole, ⟨segments, rfl, h.nonempty, h.sent⟩, h.current⟩,
    fun hdone => ⟨?_, haccounted.isCut_of_done hdone⟩, fun hroom hclose rounds hrounds hmany => ?_⟩
  · obtain hstart | hclose := closed_run.1 (h.ended (hdone ▸ trivial)).1
    · nomatch hstart
    · exact hclose
  · have hunread : (run window room {} events).incoming.length ≤ (arrivals events).length := by
      rw [← h.whole, List.length_append]
      omega
    have hwork := work_le (s := run window room {} events)
    have hleft : ((run window room {} events).run window room rounds.flatten).work ≤
        (run window room {} events).work - rounds.length :=
      work_rounds (closed_run.2 (.inr hclose)) (outgoing_run_le (Nat.zero_le room)) hroom hrounds
    rw [run_append, ← work_eq_zero]
    omega

/-- Two saves, the second one when the batch of the first one went out already. Nobody takes a batch
yet. -/
def twoSaves : List Event :=
  [.arrive "src/a.js", .arrive "b.js", .turn true, .turn true, .turn true, .arrive "src//a.js",
    .turn true, .turn true, .turn true, .clock 50, .turn true, .turn true, .arrive "c.js", .close]

/-- The reader takes a batch now and then, and the gatherer gets to run. -/
def reading : List (List Event) := List.replicate 20 [.take, .clock 60, .turn false, .turn true]

theorem run_cuts_twoSaves :
    .hangUp ∉ twoSaves ++ reading.flatten ∧
      (run 50 1 {} (twoSaves ++ reading.flatten)).phase = .done ∧
      (run 50 1 {} (twoSaves ++ reading.flatten)).batches = [["src/a.js", "b.js"], ["c.js"]] ∧
      Batch.IsCut ["src/a.js", "b.js", "src//a.js", "c.js"] [["src/a.js", "b.js"], ["c.js"]] := by
  have hopen : .hangUp ∉ twoSaves := by decide
  have hopen' : .hangUp ∉ twoSaves ++ reading.flatten := by decide
  have hrounds : ∀ round ∈ reading, IsRound round := by
    intro round hround
    rw [List.eq_of_mem_replicate hround]
    exact ((List.Sublist.refl [Event.turn true]).cons _).cons _ |>.cons_cons _
  have hdone := (run_cuts 50 1 twoSaves hopen).2.2 (by decide) (by decide +kernel) reading hrounds
    (by decide)
  obtain ⟨-, hcut⟩ := (run_cuts 50 1 (twoSaves ++ reading.flatten) hopen').2.1 hdone
  have hbatches : (run 50 1 {} (twoSaves ++ reading.flatten)).batches =
      [["src/a.js", "b.js"], ["c.js"]] := by decide +kernel
  rw [hbatches] at hcut
  exact ⟨hopen', hdone, hbatches, hcut⟩

/-! ## Batches that are taken at once -/

/-- A gatherer waits for a path, and every batch that went out is taken. -/
structure Quiet (s : Gatherer) : Prop where
  closed : s.closed = false
  hungUp : s.hungUp = false
  incoming : s.incoming = []
  outgoing : s.outgoing = []
  phase : s.phase = .resting ∨ ∃ deadline till paths, s.phase = .waiting deadline till paths

/-- A batch that has waited long enough goes out and is taken. -/
theorem Quiet.before (h : s.Quiet) (window time : Nat) :
    (s.run window 1 (s.eventsBefore time)).Quiet := by
  obtain hphase | ⟨deadline, till, paths, hphase⟩ := h.phase
  · rwa [eventsBefore, hphase]
  · simp only [eventsBefore, hphase]
    split
    · have hrings : till ≤ max s.now till := Nat.le_max_right s.now till
      constructor <;>
        simp [run, step, turn, read, hphase, hrings, h.closed, h.incoming, h.hungUp, h.outgoing]
    · exact h

/-- A path that arrives is read at once. -/
theorem Quiet.reads (h : s.Quiet) (window time : Nat) (path : String) : ∃ deadline paths,
    s.run window 1 [.clock time, .arrive path, .turn true] =
      { s with now := max s.now time, phase := .opened deadline paths } := by
  obtain hphase | ⟨deadline, till, paths, hphase⟩ := h.phase
  · exact ⟨max s.now time + window * Batch.windowLimit, [path],
      by simp [run, step, turn, read, hphase, h.closed, h.incoming]⟩
  · exact ⟨deadline, Batch.note paths path,
      by simp [run, step, turn, read, hphase, h.closed, h.incoming]⟩

/-- A batch that is open waits for another path, or it goes out and is taken. -/
theorem Quiet.looks (h : s.Quiet) (window now deadline : Nat) (paths : List String) :
    (run window 1 { s with now, phase := .opened deadline paths }
      [.turn true, .turn true, .take]).Quiet := by
  by_cases hwait : min window (deadline - now) = 0
  · constructor <;>
      simp [run, step, turn, hwait, h.closed, h.hungUp, h.incoming, h.outgoing]
  · have hlater : ¬ now + min window (deadline - now) ≤ now := by omega
    constructor <;>
      simp [run, step, turn, read, hwait, hlater, h.closed, h.incoming, h.outgoing, h.hungUp]

theorem Quiet.arrives (h : s.Quiet) (window time : Nat) (path : String) :
    (s.happen window time (.arrive path)).Quiet := by
  obtain ⟨deadline, paths, hreads⟩ := (h.before window time).reads window time path
  have hlooks := (h.before window time).looks window
    (max (s.run window 1 (s.eventsBefore time)).now time) deadline paths
  rwa [← hreads, ← run_append] at hlooks

theorem Quiet.closes (h : s.Quiet) (window time : Nat) :
    (s.happen window time .close).phase = .done ∧ (s.happen window time .close).outgoing = [] := by
  rw [happen]
  have hquiet := h.before window time
  generalize s.run window 1 (s.eventsBefore time) = s' at hquiet
  obtain hphase | ⟨deadline, till, paths, hphase⟩ := hquiet.phase
  · constructor <;> simp [run, step, turn, read, hphase, hquiet.incoming, hquiet.outgoing]
  · constructor <;>
      simp [run, step, turn, read, hphase, hquiet.incoming, hquiet.outgoing, hquiet.hungUp]

theorem eventsBefore_silent (s : Gatherer) (time : Nat) :
    .hangUp ∉ s.eventsBefore time ∧ arrivals (s.eventsBefore time) = [] := by
  rw [eventsBefore]
  split
  · split
    · exact ⟨by simp, rfl⟩
    · exact ⟨List.not_mem_nil, rfl⟩
  · exact ⟨List.not_mem_nil, rfl⟩

theorem Accounted.happens {e : Event} (h : s.Accounted paths) (hquiet : s.Quiet) (he : e ≠ .hangUp)
    (window time : Nat) : (s.happen window time e).Accounted (paths ++ arrivals [e]) := by
  obtain ⟨hopen, hsilent⟩ := eventsBefore_silent s time
  have hbefore : (s.run window 1 (s.eventsBefore time)).Accounted (paths ++ s.admitted _) :=
    h.run hquiet.hungUp hopen
  rw [s.admitted_eq_nil hsilent, List.append_nil] at hbefore
  have hstill := hquiet.before window time
  have hnow : (s.happen window time e).Accounted
      (paths ++ (s.run window 1 (s.eventsBefore time)).admitted _) :=
    hbefore.run hstill.hungUp (by simp [he.symm])
  rw [admitted, hstill.closed] at hnow
  cases e <;> exact hnow

/-- The stream is still open, and what came in so far is cut into stretches. -/
theorem foldl_happen (window : Nat) (changes : List Arrival) (hquiet : s.Quiet)
    (h : s.Accounted paths) :
    (changes.foldl (fun s a => s.happen window a.time (.arrive a.path)) s).Quiet ∧
      (changes.foldl (fun s a => s.happen window a.time (.arrive a.path)) s).Accounted
        (paths ++ changes.map (·.path)) := by
  induction changes generalizing s paths with
  | nil =>
    rw [List.map_nil, List.append_nil]
    exact ⟨hquiet, h⟩
  | cons a changes ih =>
    have hrest := ih (hquiet.arrives window a.time a.path)
      (h.happens hquiet (e := .arrive a.path) nofun window a.time)
    rwa [List.append_assoc] at hrest

end Gatherer

/-- The batches name the paths of consecutive stretches of what arrives, up to the last path. -/
theorem Batch.gather_isCut (window closeAt : Nat) (changes : List Arrival) :
    IsCut (changes.map (·.path)) ((gather window closeAt changes).map (·.paths)) := by
  have hstart : Gatherer.Quiet {} := ⟨rfl, rfl, rfl, rfl, .inl rfl⟩
  obtain ⟨hquiet, h⟩ := Gatherer.foldl_happen window changes hstart Gatherer.accounted_start
  obtain ⟨hdone, hout⟩ := hquiet.closes window closeAt
  have hcut := (h.happens hquiet (e := .close) nofun window closeAt).isCut_of_done hdone
  rwa [Gatherer.batches, hout, List.append_nil, Gatherer.arrivals, List.append_nil] at hcut

end Bindery
