import Mathlib.Data.List.Basic
import Bindery.Proofs.Session.Run

/-!
# The cycles of a run

Cycles are numbered as they begin. One runs at a time, goes stale at most once, and publishes when
it ends without having gone stale. So what is published is numbered in order, each number once, and
never with the number of a stale cycle.

* `Session.Turn` : what a move does to the cycles.
* `SessionHistory.Ordered` : the order of cycles, kept by every move.
* `Session.ordered_history` : it holds of every run.
-/

namespace Bindery

namespace SessionHistory

/-- At some moment the cycle was stale. -/
def WentStale (h : SessionHistory) (cycle : Nat) : Prop :=
  ∃ m ∈ h.moments, m.next.status = .building cycle true

/-- The build of the cycle came to its end while the session ran. -/
def Completes (h : SessionHistory) (cycle : Nat) : Prop :=
  ∃ m ∈ h.moments, ∃ stale seen durationMs,
    m.state.status = .building cycle stale ∧ m.signal = .built seen durationMs

theorem WentStale.later {h : SessionHistory} {cycle : Nat} (hstale : h.WentStale cycle)
    (m : Moment) (st : SessionState) (d : Disk) :
    WentStale { moments := h.moments ++ [m], state := st, disk := d } cycle := by
  obtain ⟨m', hm', hstatus⟩ := hstale
  exact ⟨m', List.mem_append_left _ hm', hstatus⟩

theorem wentStale_append {moments : List Moment} {m : Moment} {st : SessionState} {d : Disk}
    {cycle : Nat} (h : WentStale { moments := moments ++ [m], state := st, disk := d } cycle) :
    m.next.status = .building cycle true ∨ ∃ m' ∈ moments, m'.next.status = .building cycle true := by
  obtain ⟨m', hm', hstatus⟩ := h
  rcases List.mem_append.1 hm' with hm' | hm'
  · exact .inr ⟨m', hm', hstatus⟩
  · obtain rfl := List.mem_singleton.1 hm'
    exact .inl hstatus

@[simp] theorem updates_append (moments : List Moment) (m : Moment) (st : SessionState) (d : Disk) :
    updates { moments := moments ++ [m], state := st, disk := d } =
      moments.filterMap (·.update) ++ m.update.toList := by
  cases hupdate : m.update <;> simp [updates, hupdate]

theorem mem_updates {h : SessionHistory} {u : SessionUpdate} :
    u ∈ h.updates ↔ ∃ m ∈ h.moments, m.update = some u := by
  simp [updates, List.mem_filterMap]

end SessionHistory

/-- The number of the last cycle that has nothing more to publish. -/
def SessionState.spent (st : SessionState) : Nat :=
  if st.status.isBuilding then st.cycle - 1 else st.cycle

theorem SessionState.spent_le (st : SessionState) : st.spent ≤ st.cycle := by
  unfold spent
  split <;> omega

namespace Session

/-- What a move does to the cycles. -/
inductive Turn (st next : SessionState) (signal : Signal) (update : Option SessionUpdate) : Prop where
  /-- The status stays as it is. -/
  | rests (hstatus : next.status = st.status) (hcycle : next.cycle = st.cycle)
      (hquiet : update = none)
  /-- A cycle begins; none was running but a stale one. -/
  | starts (hfree : ∀ cycle, st.status ≠ .building cycle false)
      (hstatus : next.status = .building next.cycle false) (hcycle : next.cycle = st.cycle + 1)
      (hquiet : update = none)
  /-- The running cycle goes stale. -/
  | stales (cycle : Nat) (stale : Bool) (hbuilding : st.status = .building cycle stale)
      (hstatus : next.status = .building cycle true) (hcycle : next.cycle = st.cycle)
      (hquiet : update = none)
  /-- The running cycle ends, and this is published. -/
  | ends (cycle : Nat) (page : Option ErrorPage) (u : SessionUpdate)
      (hbuilding : st.status = .building cycle false)
      (hsignal : ∃ seen durationMs, signal = .built seen durationMs)
      (hstatus : next.status = .ready page) (hcycle : next.cycle = st.cycle)
      (hupdate : update = some u) (hnumber : u.cycle = cycle)
  /-- The session ends. -/
  | stops (hstatus : next.status = .shutDown) (hcycle : next.cycle = st.cycle)
      (hquiet : update = none)

variable {s : Session} {st next : SessionState} {d nextDisk : Disk} {signal : Signal}
  {update : Option SessionUpdate}

theorem Moves.turn (hmove : Moves s st d signal next update nextDisk) :
    Turn st next signal update := by
  cases hmove with
  | ignores => exact .rests rfl rfl rfl
  | closes => exact .rests rfl rfl rfl
  | stops => exact .stops rfl rfl rfl
  | begins hidle => exact .starts (by simp [hidle]) rfl rfl rfl
  | notes => exact .rests rfl rfl rfl
  | stales paths cycle stale _ hbuilding => exact .stales cycle stale hbuilding rfl rfl rfl
  | wakes paths page _ hready => exact .starts (by simp [hready]) rfl rfl rfl
  | discards cycle seen durationMs hbuilding => exact .starts (by simp [hbuilding]) rfl rfl rfl
  | succeeds cycle seen durationMs snapshot written hbuilding =>
    exact .ends cycle none _ hbuilding ⟨seen, durationMs, rfl⟩ rfl rfl rfl (by simp)
  | fails cycle seen durationMs e left hbuilding =>
    exact .ends cycle _ _ hbuilding ⟨seen, durationMs, rfl⟩ rfl rfl rfl (by simp)

end Session

/-- The order of cycles in a run. -/
structure SessionHistory.Ordered (h : SessionHistory) : Prop where
  /-- A stale cycle is over, or runs still, or the session ended with it. -/
  stale : ∀ cycle, h.WentStale cycle → cycle < h.state.cycle ∨
    cycle = h.state.cycle ∧ (h.state.status = .building cycle true ∨ h.state.status = .shutDown)
  /-- A cycle that is stale has gone stale. -/
  running : ∀ cycle, h.state.status = .building cycle true → h.WentStale cycle
  /-- So had every cycle that was found stale. -/
  found : ∀ m ∈ h.moments, ∀ cycle, m.state.status = .building cycle true → h.WentStale cycle
  /-- What is published is published by a cycle that is over, that came to its end, and that did
  not go stale. -/
  published : ∀ u ∈ h.updates,
    u.cycle ≤ h.state.spent ∧ h.Completes u.cycle ∧ ¬h.WentStale u.cycle
  /-- What is published later is numbered higher. -/
  increasing : h.updates.Pairwise fun u v => u.cycle < v.cycle

namespace Session

section Turn

variable {st next : SessionState} {signal : Signal} {update : Option SessionUpdate}

theorem Turn.cycle_le (hturn : Turn st next signal update) : st.cycle ≤ next.cycle := by
  cases hturn with
  | rests _ hcycle => omega
  | starts _ _ hcycle => omega
  | stales cycle stale _ _ hcycle => omega
  | ends cycle page u _ _ _ hcycle => omega
  | stops _ hcycle => omega

/-- A cycle that has nothing more to publish stays so. -/
theorem Turn.spent_le (hturn : Turn st next signal update) : st.spent ≤ next.spent := by
  have hst := st.spent_le
  cases hturn with
  | rests hstatus hcycle => simp [SessionState.spent, hstatus, hcycle]
  | starts _ hstatus hcycle =>
    have hnext : next.spent = next.cycle - 1 := by simp [SessionState.spent, hstatus]
    omega
  | stales cycle stale hbuilding hstatus hcycle =>
    simp [SessionState.spent, hbuilding, hstatus, hcycle]
  | ends cycle page u _ _ hstatus hcycle =>
    have hnext : next.spent = next.cycle := by
      simp [SessionState.spent, hstatus, SessionStatus.isBuilding]
    omega
  | stops hstatus hcycle =>
    have hnext : next.spent = next.cycle := by
      simp [SessionState.spent, hstatus, SessionStatus.isBuilding]
    omega

/-- Only the end of a cycle that is not stale publishes. -/
theorem Turn.of_publishes {u : SessionUpdate} (hturn : Turn st next signal (some u)) :
    st.status = .building u.cycle false ∧ (∃ seen durationMs, signal = .built seen durationMs) ∧
      (∃ page, next.status = .ready page) ∧ next.cycle = st.cycle := by
  cases hturn with
  | ends cycle page v hbuilding hsignal hstatus hcycle hupdate hnumber =>
    obtain rfl : u = v := Option.some.inj hupdate
    exact ⟨hnumber ▸ hbuilding, hsignal, ⟨page, hstatus⟩, hcycle⟩
  | rests _ _ hquiet => cases hquiet
  | starts _ _ _ hquiet => cases hquiet
  | stales cycle stale _ _ _ hquiet => cases hquiet
  | stops _ _ hquiet => cases hquiet

/-- A running cycle has something to publish still. -/
theorem spent_lt_of_building (hsound : st.Sound) {cycle : Nat} {stale : Bool}
    (hbuilding : st.status = .building cycle stale) : st.spent < cycle := by
  obtain ⟨hcycle, hpos, -⟩ := hsound.building cycle stale hbuilding
  have hspent : st.spent = st.cycle - 1 := by simp [SessionState.spent, hbuilding]
  omega

end Turn

variable {h : SessionHistory} {d nextDisk : Disk} {signal : Signal} {next : SessionState}
  {update : Option SessionUpdate}

/-- A stale cycle stays over, or runs on, or the session has ended with it. -/
theorem stale_of_turn (ih : h.Ordered) (hsound : next.Sound)
    (hturn : Turn h.state next signal update) (m : Moment) (hm : m.next = next) :
    ∀ cycle, SessionHistory.WentStale
        { moments := h.moments ++ [m], state := next, disk := nextDisk } cycle →
      cycle < next.cycle ∨
        cycle = next.cycle ∧ (next.status = .building cycle true ∨ next.status = .shutDown) := by
  intro cycle hstale
  rcases SessionHistory.wentStale_append hstale with hnow | hbefore
  · rw [hm] at hnow
    exact .inr ⟨(hsound.building cycle true hnow).1, .inl hnow⟩
  have hle := hturn.cycle_le
  rcases ih.stale cycle hbefore with hover | ⟨hlast, hstatus⟩
  · exact .inl (Nat.lt_of_lt_of_le hover hle)
  cases hturn with
  | rests hsame hcycle =>
    rw [hsame, hcycle]
    exact .inr ⟨hlast, hstatus⟩
  | starts _ _ hcycle => exact .inl (by omega)
  | stales running stale hbuilding hnext hcycle =>
    rcases hstatus with hstatus | hended
    · obtain ⟨rfl, -⟩ : running = cycle ∧ stale = true := by simpa [hbuilding] using hstatus
      exact .inr ⟨by omega, .inl hnext⟩
    · simp [hbuilding] at hended
  | ends running page u hbuilding =>
    -- what ends and publishes was not stale
    simp [hbuilding] at hstatus
  | stops hended hcycle => exact .inr ⟨by omega, .inr hended⟩

/-- What has been published by then stays published by a good cycle that is over. -/
theorem published_of_turn (ih : h.Ordered) (hsound : next.Sound)
    (hturn : Turn h.state next signal update) (m : Moment) (hm : m.next = next)
    (nextDisk : Disk) : ∀ u ∈ h.updates, u.cycle ≤ next.spent ∧
      SessionHistory.Completes
        { moments := h.moments ++ [m], state := next, disk := nextDisk } u.cycle ∧
      ¬SessionHistory.WentStale
        { moments := h.moments ++ [m], state := next, disk := nextDisk } u.cycle := by
  intro u hu
  obtain ⟨hspent, ⟨m', hm', hcompletes⟩, hfresh⟩ := ih.published u hu
  have hover : u.cycle ≤ next.spent := Nat.le_trans hspent hturn.spent_le
  refine ⟨hover, ⟨m', List.mem_append_left _ hm', hcompletes⟩, ?_⟩
  intro hstale
  rcases SessionHistory.wentStale_append hstale with hnow | hbefore
  · rw [hm] at hnow
    have hrunning := spent_lt_of_building hsound hnow
    omega
  · exact hfresh hbefore

/-- A cycle that runs and is not stale has been stale at no moment. -/
theorem not_wentStale_of_building (ih : h.Ordered) (hsound : h.state.Sound) {cycle : Nat}
    (hbuilding : h.state.status = .building cycle false) : ¬h.WentStale cycle := by
  intro hstale
  have hcycle := (hsound.building cycle false hbuilding).1
  rcases ih.stale cycle hstale with hover | ⟨-, hstatus | hended⟩
  · omega
  · simp [hbuilding] at hstatus
  · simp [hbuilding] at hended

/-- Every move keeps the order of cycles. -/
theorem ordered_of_turn (ih : h.Ordered) (hst : h.state.Sound) (hsound : next.Sound)
    (hturn : Turn h.state next signal update) :
    SessionHistory.Ordered
      { moments := h.moments ++ [⟨h.state, d, signal, next, update, nextDisk⟩]
        state := next, disk := nextDisk } := by
  have hold := published_of_turn ih hsound hturn
    ⟨h.state, d, signal, next, update, nextDisk⟩ rfl nextDisk
  refine ⟨stale_of_turn ih hsound hturn _ rfl, ?_, ?_, ?_, ?_⟩
  · intro cycle hrunning
    exact ⟨_, List.mem_append_right _ (List.mem_singleton_self _), hrunning⟩
  · intro m hm cycle hfound
    rcases List.mem_append.1 hm with hm | hm
    · exact (ih.found m hm cycle hfound).later _ _ _
    · obtain rfl := List.mem_singleton.1 hm
      exact (ih.running cycle hfound).later _ _ _
  · intro u hu
    rw [SessionHistory.updates_append] at hu
    rcases List.mem_append.1 hu with hu | hu
    · exact hold u hu
    · obtain rfl : update = some u := by simpa using hu
      obtain ⟨hbuilding, ⟨seen, durationMs, hsignal⟩, ⟨page, hready⟩, hcycle⟩ := hturn.of_publishes
      have hlast := (hst.building u.cycle false hbuilding).1
      refine ⟨?_, ⟨_, List.mem_append_right _ (List.mem_singleton_self _), false, seen, durationMs,
        hbuilding, hsignal⟩, ?_⟩
      · show u.cycle ≤ next.spent
        have hspent : next.spent = next.cycle := by
          simp [SessionState.spent, hready, SessionStatus.isBuilding]
        omega
      · intro hstale
        rcases SessionHistory.wentStale_append hstale with hnow | hbefore
        · simp [hready] at hnow
        · exact not_wentStale_of_building ih hst hbuilding hbefore
  · rw [SessionHistory.updates_append]
    refine List.pairwise_append.2 ⟨ih.increasing, ?_, ?_⟩
    · cases update with
      | none => exact List.Pairwise.nil
      | some v => exact List.pairwise_singleton _ v
    · intro u hu v hv
      obtain rfl : update = some v := by simpa using hv
      have hspent := (ih.published u hu).1
      have hrunning := spent_lt_of_building hst hturn.of_publishes.1
      omega

/-- The cycles of every run are in order. -/
theorem ordered_history (s : Session) (d : Disk) (signals : List Signal) :
    (s.history d signals).Ordered := by
  refine history_induction (s := s) (d := d) (P := SessionHistory.Ordered) ?_ ?_ signals
  · constructor <;> simp [SessionHistory.WentStale, SessionHistory.updates]
  · intro h signal next update nextDisk ih hsound hmove
    exact ordered_of_turn ih hsound (hmove.sound hsound) hmove.turn

end Session

end Bindery
