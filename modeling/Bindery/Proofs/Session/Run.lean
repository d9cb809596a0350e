import Bindery.Session.Basic

/-!
# Runs of a session

A session is told one signal after the other, in any order and at any time, so a run is any list of
signals. A moment holds what one signal led from and to; the history of a run holds its moments and
where the run has come to.

* `Session.Moves` : all that a signal can do to a session, by what it does.
* `Session.moves` : every step does one of these.
* `SessionState.Sound` : what the status of a session says about the rest of its state.
* `Session.history_induction` : what every step keeps holds after every run.
* `Session.moves_of_mem` : what holds of every moment of a run.
* `Session.run_eq_history` : a run comes to the state, the updates and the disk of its history.
-/

namespace Bindery

/-! ## States -/

namespace SessionStatus

@[simp] theorem isBuilding_building (cycle : Nat) (stale : Bool) :
    (building cycle stale).isBuilding = true := rfl

end SessionStatus

namespace SessionState

/-- Whether changes are taken in: until the stream of changes has ended, or the session has. -/
def listens (st : SessionState) : Bool :=
  match st.status with
  | .idle => true
  | .building _ _ => !st.closed
  | .ready _ => !st.closed
  | .shutDown => false

/-- A cycle that runs is the last one that began, and it is stale exactly if something was touched
since. A session that waits has nothing left to begin with. -/
structure Sound (st : SessionState) : Prop where
  idle : st.status = .idle → st.cycle = 0 ∧ st.lastGood = none
  building : ∀ cycle stale, st.status = .building cycle stale →
    cycle = st.cycle ∧ 0 < cycle ∧ (stale = true ↔ st.pending ≠ [])
  ready : ∀ page, st.status = .ready page → st.pending = []

theorem sound_start : Sound {} := by
  constructor
  · intro _
    exact ⟨rfl, rfl⟩
  · intro cycle stale h
    simp at h
  · intro page h
    simp at h

theorem sound_startCycle (st : SessionState) : Sound st.startCycle := by
  constructor
  · intro h
    simp [startCycle] at h
  · intro cycle stale h
    simp only [startCycle, SessionStatus.building.injEq] at h
    obtain ⟨rfl, rfl⟩ := h
    refine ⟨rfl, Nat.succ_pos _, ?_⟩
    simp [startCycle]
  · intro page h
    simp [startCycle] at h

end SessionState

/-! ## Steps -/

namespace Session

/-- What a signal can do to a session. -/
inductive Moves (s : Session) (st : SessionState) (d : Disk) :
    Signal → SessionState → Option SessionUpdate → Disk → Prop where
  /-- Nothing; changes are lost on no session that listens. -/
  | ignores (signal : Signal)
      (hchanged : ∀ paths, signal = .changed paths → st.listens = false) :
      Moves s st d signal st none d
  /-- No more changes will come. -/
  | closes (hrunning : st.status = .idle ∨ st.status.isBuilding = true) :
      Moves s st d .closed { st with closed := true } none d
  /-- The session ends: it is told to, or it waits for nothing. -/
  | stops (signal : Signal) (hrunning : st.status ≠ .shutDown)
      (hcause : signal = .stopped ∨ ∃ page, st.status = .ready page) :
      Moves s st d signal st.stop none d
  /-- The first cycle begins. -/
  | begins (hidle : st.status = .idle) : Moves s st d .begun st.startCycle none d
  /-- Changes are noted for the first cycle, or none of them concerns a module. -/
  | notes (paths : List String) (hlistens : st.listens = true)
      (hquiet : st.status = .idle ∨ (st.absorb s.bundler.profile.root paths).pending = []) :
      Moves s st d (.changed paths) (st.absorb s.bundler.profile.root paths) none d
  /-- Changes make the running cycle stale. -/
  | stales (paths : List String) (cycle : Nat) (stale : Bool) (hlistens : st.listens = true)
      (hbuilding : st.status = .building cycle stale)
      (htouched : (st.absorb s.bundler.profile.root paths).pending ≠ []) :
      Moves s st d (.changed paths)
        { st.absorb s.bundler.profile.root paths with status := .building cycle true } none d
  /-- Changes start the next cycle. -/
  | wakes (paths : List String) (page : Option ErrorPage) (hlistens : st.listens = true)
      (hready : st.status = .ready page)
      (htouched : (st.absorb s.bundler.profile.root paths).pending ≠ []) :
      Moves s st d (.changed paths) (st.absorb s.bundler.profile.root paths).startCycle none d
  /-- What a stale cycle came to is thrown away, but for what it wrote. -/
  | discards (cycle : Nat) (seen : Project) (durationMs : Nat)
      (hbuilding : st.status = .building cycle true) :
      Moves s st d (.built seen durationMs) st.startCycle none (s.build st seen d).2
  /-- A cycle ends well. -/
  | succeeds (cycle : Nat) (seen : Project) (durationMs : Nat) (snapshot : Snapshot)
      (written : Disk) (hbuilding : st.status = .building cycle false)
      (hbuild : s.build st seen d = (.ok snapshot, written)) :
      Moves s st d (.built seen durationMs) (st.succeed snapshot)
        (some (.ofSnapshot cycle snapshot durationMs)) (s.hidePage written).2
  /-- A cycle fails. -/
  | fails (cycle : Nat) (seen : Project) (durationMs : Nat) (e : BuildError)
      (left : Disk) (hbuilding : st.status = .building cycle false)
      (hbuild : s.build st seen d = (.error e, left)) :
      Moves s st d (.built seen durationMs) (st.fail (.ofError e))
        (some (.ofPage cycle (.ofError e) durationMs)) (s.showPage (.ofError e) left).2

variable {s : Session} {st : SessionState} {d : Disk}

/-- Taking in changes does one of three things. -/
theorem moves_receive (paths : List String) (hlistens : st.listens = true) :
    Moves s st d (.changed paths) (st.receive s.bundler.profile.root paths) none d := by
  unfold SessionState.receive
  by_cases hpending : (st.absorb s.bundler.profile.root paths).pending = []
  · simp only [hpending, if_true]
    exact .notes paths hlistens (.inr hpending)
  · simp only [hpending, if_false]
    cases hstatus : st.status with
    | idle => exact .notes paths hlistens (.inl hstatus)
    | building cycle stale => exact .stales paths cycle stale hlistens hstatus hpending
    | ready page => exact .wakes paths page hlistens hstatus hpending
    | shutDown => simp [SessionState.listens, hstatus] at hlistens

/-- Completing a cycle whose build is good. -/
theorem finish_of_ok {seen : Project} {snapshot : Snapshot} {written : Disk}
    (hbuild : s.build st seen d = (.ok snapshot, written)) (durationMs cycle : Nat) :
    s.finish seen durationMs st cycle false d =
      ((st.succeed snapshot, some (.ofSnapshot cycle snapshot durationMs)),
        (s.hidePage written).2) := by
  simp only [finish, ExceptT.run, bind, StateT.bind, hbuild, pure]
  rfl

/-- Completing a cycle whose build failed. -/
theorem finish_of_error {seen : Project} {e : BuildError} {left : Disk}
    (hbuild : s.build st seen d = (.error e, left)) (durationMs cycle : Nat) :
    s.finish seen durationMs st cycle false d =
      ((st.fail (.ofError e), some (.ofPage cycle (.ofError e) durationMs)),
        (s.showPage (.ofError e) left).2) := by
  simp only [finish, ExceptT.run, bind, StateT.bind, hbuild, pure]
  rfl

/-- Completing a cycle does one of three things. -/
theorem moves_finish (seen : Project) (durationMs : Nat) {cycle : Nat} {stale : Bool}
    (hbuilding : st.status = .building cycle stale) :
    Moves s st d (.built seen durationMs) (s.finish seen durationMs st cycle stale d).1.1
      (s.finish seen durationMs st cycle stale d).1.2
      (s.finish seen durationMs st cycle stale d).2 := by
  rcases hbuild : s.build st seen d with ⟨result, written⟩
  cases stale with
  | true =>
    have hfinish : s.finish seen durationMs st cycle true d = ((st.startCycle, none), written) := by
      simp only [finish, ExceptT.run, bind, StateT.bind, hbuild, pure]
      rfl
    have hmove := Moves.discards (s := s) (d := d) cycle seen durationMs hbuilding
    rw [hfinish]
    rwa [hbuild] at hmove
  | false =>
    cases result with
    | ok snapshot =>
      rw [finish_of_ok hbuild]
      exact .succeeds cycle seen durationMs snapshot written hbuilding hbuild
    | error e =>
      rw [finish_of_error hbuild]
      exact .fails cycle seen durationMs e written hbuilding hbuild

theorem moves_of_idle (hidle : st.status = .idle) (signal : Signal) :
    Moves s st d signal (s.step st signal d).1.1 (s.step st signal d).1.2
      (s.step st signal d).2 := by
  cases signal with
  | begun =>
    have hstep : s.step st .begun d = ((st.startCycle, none), d) := by simp [step, hidle]; rfl
    rw [hstep]
    exact .begins hidle
  | changed paths =>
    have hstep : s.step st (.changed paths) d =
        ((st.receive s.bundler.profile.root paths, none), d) := by simp [step, hidle]; rfl
    rw [hstep]
    exact moves_receive paths (by simp [SessionState.listens, hidle])
  | closed =>
    have hstep : s.step st .closed d = (({ st with closed := true }, none), d) := by
      simp [step, hidle]; rfl
    rw [hstep]
    exact .closes (.inl hidle)
  | built seen durationMs =>
    have hstep : s.step st (.built seen durationMs) d = ((st, none), d) := by
      simp [step, hidle]; rfl
    rw [hstep]
    exact .ignores _ (by simp)
  | stopped =>
    have hstep : s.step st .stopped d = ((st.stop, none), d) := by simp [step, hidle]; rfl
    rw [hstep]
    exact .stops _ (by simp [hidle]) (.inl rfl)

theorem moves_of_building {cycle : Nat} {stale : Bool}
    (hbuilding : st.status = .building cycle stale) (signal : Signal) :
    Moves s st d signal (s.step st signal d).1.1 (s.step st signal d).1.2
      (s.step st signal d).2 := by
  cases signal with
  | begun =>
    have hstep : s.step st .begun d = ((st, none), d) := by simp [step, hbuilding]; rfl
    rw [hstep]
    exact .ignores _ (by simp)
  | changed paths =>
    by_cases hclosed : st.closed = true
    · have hstep : s.step st (.changed paths) d = ((st, none), d) := by
        simp [step, hbuilding, hclosed]; rfl
      rw [hstep]
      exact .ignores _ fun _ _ => by simp [SessionState.listens, hbuilding, hclosed]
    · have hstep : s.step st (.changed paths) d =
          ((st.receive s.bundler.profile.root paths, none), d) := by
        simp [step, hbuilding, hclosed]; rfl
      rw [hstep]
      exact moves_receive paths (by simp [SessionState.listens, hbuilding, hclosed])
  | closed =>
    have hstep : s.step st .closed d = (({ st with closed := true }, none), d) := by
      simp [step, hbuilding]; rfl
    rw [hstep]
    exact .closes (.inr (by simp [hbuilding]))
  | built seen durationMs =>
    have hstep : s.step st (.built seen durationMs) d =
        s.finish seen durationMs st cycle stale d := by simp [step, hbuilding]
    rw [hstep]
    exact moves_finish seen durationMs hbuilding
  | stopped =>
    have hstep : s.step st .stopped d = ((st.stop, none), d) := by simp [step, hbuilding]; rfl
    rw [hstep]
    exact .stops _ (by simp [hbuilding]) (.inl rfl)

theorem moves_of_ready {page : Option ErrorPage} (hready : st.status = .ready page)
    (signal : Signal) :
    Moves s st d signal (s.step st signal d).1.1 (s.step st signal d).1.2
      (s.step st signal d).2 := by
  -- a session that waits while nothing can come any more ends at the next signal, whichever it is
  have hends (signal : Signal) (hstep : s.step st signal d = ((st.stop, none), d)) :
      Moves s st d signal (s.step st signal d).1.1 (s.step st signal d).1.2
        (s.step st signal d).2 := by
    rw [hstep]
    exact .stops signal (by simp [hready]) (.inr ⟨page, hready⟩)
  by_cases hclosed : st.closed = true
  · refine hends signal ?_
    cases signal <;> simp [step, hready, hclosed] <;> rfl
  · cases signal with
    | begun =>
      have hstep : s.step st .begun d = ((st, none), d) := by simp [step, hready, hclosed]; rfl
      rw [hstep]
      exact .ignores _ (by simp)
    | changed paths =>
      have hstep : s.step st (.changed paths) d =
          ((st.receive s.bundler.profile.root paths, none), d) := by
        simp [step, hready, hclosed]; rfl
      rw [hstep]
      exact moves_receive paths (by simp [SessionState.listens, hready, hclosed])
    | closed => exact hends .closed (by simp [step, hready]; rfl)
    | built seen durationMs =>
      have hstep : s.step st (.built seen durationMs) d = ((st, none), d) := by
        simp [step, hready, hclosed]; rfl
      rw [hstep]
      exact .ignores _ (by simp)
    | stopped => exact hends .stopped (by simp [step, hready]; rfl)

/-- Every step is one of the moves. -/
theorem moves (s : Session) (st : SessionState) (d : Disk) (signal : Signal) :
    Moves s st d signal (s.step st signal d).1.1 (s.step st signal d).1.2
      (s.step st signal d).2 := by
  cases hstatus : st.status with
  | idle => exact moves_of_idle hstatus signal
  | building cycle stale => exact moves_of_building hstatus signal
  | ready page => exact moves_of_ready hstatus signal
  | shutDown =>
    have hstep : s.step st signal d = ((st, none), d) := by
      cases signal <;> simp [step, hstatus] <;> rfl
    rw [hstep]
    exact .ignores signal fun _ _ => by simp [SessionState.listens, hstatus]

/-- Every move keeps a state sound. -/
theorem Moves.sound {signal : Signal} {st' : SessionState} {update : Option SessionUpdate}
    {d' : Disk} (h : Moves s st d signal st' update d') (hst : st.Sound) : st'.Sound := by
  cases h with
  | ignores => exact hst
  | closes => exact ⟨hst.idle, hst.building, hst.ready⟩
  | stops =>
    constructor <;> simp [SessionState.stop]
  | begins => exact SessionState.sound_startCycle st
  | notes paths _ hquiet =>
    constructor
    · exact hst.idle
    · intro cycle stale hbuilding
      rcases hquiet with hidle | hpending
      · simp only [SessionState.absorb] at hbuilding
        simp [hidle] at hbuilding
      · obtain ⟨hcycle, hpos, hstale⟩ := hst.building cycle stale hbuilding
        -- nothing was noted, so nothing was noted before either
        have hbefore : st.pending = [] := (IdSet.insertAll_eq_nil.1 hpending).2
        refine ⟨hcycle, hpos, ?_⟩
        rw [hstale, hbefore, hpending]
    · intro page hready
      rcases hquiet with hidle | hpending
      · simp only [SessionState.absorb] at hready
        simp [hidle] at hready
      · exact hpending
  | stales paths cycle stale _ hbuilding htouched =>
    constructor
    · simp
    · intro cycle' stale' h
      simp only [SessionStatus.building.injEq] at h
      obtain ⟨rfl, rfl⟩ := h
      obtain ⟨hcycle, hpos, -⟩ := hst.building cycle stale hbuilding
      exact ⟨hcycle, hpos, by simpa using htouched⟩
    · simp
  | wakes => exact SessionState.sound_startCycle _
  | discards => exact SessionState.sound_startCycle st
  | succeeds cycle seen durationMs snapshot written hbuilding _ =>
    have hpending := (hst.building cycle false hbuilding).2.2
    constructor
    · simp [SessionState.succeed]
    · simp [SessionState.succeed]
    · intro page _
      simpa [SessionState.succeed] using hpending
  | fails cycle seen durationMs e left hbuilding _ =>
    have hpending := (hst.building cycle false hbuilding).2.2
    constructor
    · simp [SessionState.fail]
    · simp [SessionState.fail]
    · intro page _
      simpa [SessionState.fail] using hpending

/-- A session that has ended stays as it is. -/
theorem Moves.eq_of_shutDown {signal : Signal} {next : SessionState}
    {update : Option SessionUpdate} {nextDisk : Disk}
    (hmove : Moves s st d signal next update nextDisk)
    (hended : st.status = .shutDown) : next = st ∧ update = none := by
  have hdeaf : st.listens = false := by simp [SessionState.listens, hended]
  cases hmove with
  | ignores => exact ⟨rfl, rfl⟩
  | closes hrunning => simp [hended, SessionStatus.isBuilding] at hrunning
  | stops signal hrunning => exact absurd hended hrunning
  | begins hidle => simp [hended] at hidle
  | notes paths hlistens => simp [hdeaf] at hlistens
  | stales paths cycle stale hlistens => simp [hdeaf] at hlistens
  | wakes paths page hlistens => simp [hdeaf] at hlistens
  | discards cycle seen durationMs hbuilding => simp [hended] at hbuilding
  | succeeds cycle seen durationMs snapshot written hbuilding => simp [hended] at hbuilding
  | fails cycle seen durationMs e left hbuilding => simp [hended] at hbuilding

end Session

/-! ## Histories -/

/-- What one signal led from and to. -/
structure Moment where
  state : SessionState
  disk : Disk
  signal : Signal
  next : SessionState
  /-- What was published. -/
  update : Option SessionUpdate
  nextDisk : Disk

/-- A run so far: its moments in order, and where it has come to. -/
structure SessionHistory where
  moments : List Moment
  state : SessionState
  disk : Disk

/-- All that was published, in order. -/
def SessionHistory.updates (h : SessionHistory) : List SessionUpdate := h.moments.filterMap (·.update)

namespace Session

/-- The moment of a signal. -/
def moment (s : Session) (st : SessionState) (d : Disk) (signal : Signal) : Moment :=
  let after := s.step st signal d
  { state := st, disk := d, signal, next := after.1.1, update := after.1.2, nextDisk := after.2 }

/-- The history one signal later. -/
def extend (s : Session) (h : SessionHistory) (signal : Signal) : SessionHistory :=
  let m := s.moment h.state h.disk signal
  { moments := h.moments ++ [m], state := m.next, disk := m.nextDisk }

/-- The history of a run from the start of a session. -/
def history (s : Session) (d : Disk) (signals : List Signal) : SessionHistory :=
  signals.foldl s.extend { moments := [], state := {}, disk := d }

/-- What holds at the start, and of every moment after a sound state, holds after every run. -/
theorem history_induction {P : SessionHistory → Prop}
    (hstart : P { moments := [], state := {}, disk := d })
    (hmove : ∀ (h : SessionHistory) (signal : Signal) (next : SessionState)
      (update : Option SessionUpdate) (nextDisk : Disk), P h → h.state.Sound →
        Moves s h.state h.disk signal next update nextDisk →
          P { moments := h.moments ++ [⟨h.state, h.disk, signal, next, update, nextDisk⟩]
              state := next, disk := nextDisk })
    (signals : List Signal) : P (s.history d signals) := by
  suffices h : ∀ h : SessionHistory, P h → h.state.Sound → P (signals.foldl s.extend h) from
    h _ hstart SessionState.sound_start
  induction signals with
  | nil => exact fun h hP _ => hP
  | cons signal r ih =>
    intro h hP hsound
    have hmoves := s.moves h.state h.disk signal
    exact ih (s.extend h signal) (hmove h signal _ _ _ hP hsound hmoves) (hmoves.sound hsound)

theorem sound_history (s : Session) (d : Disk) (signals : List Signal) :
    (s.history d signals).state.Sound :=
  history_induction (P := fun h => h.state.Sound) SessionState.sound_start
    (fun _ _ _ _ _ _ hsound hmove => hmove.sound hsound) signals

/-- Every moment of a run is a move from a sound state to a sound one. -/
theorem moves_of_mem {m : Moment} {signals : List Signal}
    (hm : m ∈ (s.history d signals).moments) :
    m.state.Sound ∧ m.next.Sound ∧
      Moves s m.state m.disk m.signal m.next m.update m.nextDisk := by
  revert hm
  refine history_induction (s := s) (d := d) (P := fun h => ∀ m ∈ h.moments,
    m.state.Sound ∧ m.next.Sound ∧ Moves s m.state m.disk m.signal m.next m.update m.nextDisk)
    ?_ ?_ signals m
  · intro m hm
    simp at hm
  · intro h signal next update nextDisk ih hsound hmove m hm
    rcases List.mem_append.1 hm with hm | hm
    · exact ih m hm
    · obtain rfl := List.mem_singleton.1 hm
      exact ⟨hsound, hmove.sound hsound, hmove⟩

/-- Every moment of a run is what its signal does to its state. -/
theorem eq_moment_of_mem {s : Session} {d : Disk} {m : Moment} {signals : List Signal}
    (hm : m ∈ (s.history d signals).moments) : m = s.moment m.state m.disk m.signal := by
  suffices h : ∀ h : SessionHistory, (∀ m ∈ h.moments, m = s.moment m.state m.disk m.signal) →
      ∀ m ∈ (signals.foldl s.extend h).moments, m = s.moment m.state m.disk m.signal from
    h { moments := [], state := {}, disk := d } (by simp) m hm
  clear hm
  induction signals with
  | nil => exact fun h hbefore => hbefore
  | cons signal r ih =>
    intro h hbefore
    refine ih (s.extend h signal) ?_
    intro m hm
    rcases List.mem_append.1 hm with hm | hm
    · exact hbefore m hm
    · obtain rfl := List.mem_singleton.1 hm
      rfl

/-- A run comes to the state, the updates and the disk of its history. -/
theorem run_eq_history (s : Session) (d : Disk) (signals : List Signal) :
    s.run {} signals d =
      (((s.history d signals).state, (s.history d signals).updates),
        (s.history d signals).disk) := by
  suffices h : ∀ (ms : List Moment) (st : SessionState) (d : Disk),
      let last := signals.foldl s.extend ⟨ms, st, d⟩
      ∃ updates, s.run st signals d = ((last.state, updates), last.disk) ∧
        last.updates = ms.filterMap (·.update) ++ updates by
    obtain ⟨updates, hrun, hupdates⟩ := h [] {} d
    rw [hrun, history, hupdates]
    rfl
  induction signals with
  | nil =>
    intro ms st d
    exact ⟨[], rfl, by simp [SessionHistory.updates]⟩
  | cons signal r ih =>
    intro ms st d
    obtain ⟨updates, hrun, hupdates⟩ := ih (ms ++ [s.moment st d signal])
      (s.moment st d signal).next (s.moment st d signal).nextDisk
    refine ⟨(s.moment st d signal).update.toList ++ updates, ?_, ?_⟩
    · have hfirst : s.run st (signal :: r) d =
          (((s.run (s.moment st d signal).next r (s.moment st d signal).nextDisk).1.1,
            (s.moment st d signal).update.toList ++
              (s.run (s.moment st d signal).next r (s.moment st d signal).nextDisk).1.2),
            (s.run (s.moment st d signal).next r (s.moment st d signal).nextDisk).2) := rfl
      rw [hfirst, hrun]
      rfl
    · rw [List.foldl_cons]
      refine hupdates.trans ?_
      cases hupdate : (s.moment st d signal).update with
      | none => simp [hupdate]
      | some u => simp [hupdate]

end Session

end Bindery
