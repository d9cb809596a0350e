import Bindery.Proofs.Session.Cycles

/-!
# No change is lost

What was touched moves from the noted changes to the carried ones when a cycle begins, and leaves
those only when a cycle ends well. So a change that was taken in is noted, carried, or was carried
by a good cycle that began after it. A session that ends because nothing can come any more has
noted nothing that it has not worked on.

* `SessionState.Tracks` : where a change is, strong enough that every move keeps it.
* `Session.tracks_of_receives` : a change that was taken in is tracked.
* `Session.changes_accounted` : so it is accounted for, and nothing is left at the end.
-/

namespace Bindery

namespace Moment

/-- A change to the file of a module is taken in. -/
def Receives (m : Moment) (root : String) (id : ModuleId) : Prop :=
  m.state.listens = true ∧
    ∃ paths, m.signal = .changed paths ∧ ∃ path ∈ paths, ModuleId.ofPath? root path = some id

/-- A cycle ends well, and this is published. -/
def EndsWell (m : Moment) : Prop := ∃ u, m.update = some u ∧ u.success = true

/-- The session ends because nothing can come any more: the stream of changes ends while it waits,
or it has ended before. -/
def RunsOut (m : Moment) : Prop :=
  m.state.status ≠ .shutDown ∧ m.next.status = .shutDown ∧
    (m.signal = .stopped → m.state.closed = true ∧ ∃ page, m.state.status = .ready page)

end Moment

namespace SessionHistory

/-- A change that was taken in when the last cycle to begin was a given one is accounted for: it is
noted, or carried, or was carried by a later cycle that ended well. -/
def Accounts (h : SessionHistory) (since : Nat) (id : ModuleId) : Prop :=
  id ∈ h.state.pending ∨ id ∈ h.state.carried ∨
    ∃ m ∈ h.moments, m.EndsWell ∧ since < m.state.cycle ∧ id ∈ m.state.carried

end SessionHistory

/-! ## Where a change is -/

/-- Where a change is after some moments. What is carried is carried by a cycle that began after
the change. -/
structure SessionState.Tracks (st : SessionState) (moments : List Moment) (since : Nat)
    (id : ModuleId) : Prop where
  since_le : since ≤ st.cycle
  place : id ∈ st.pending ∨ (id ∈ st.carried ∧ since < st.cycle) ∨
    ∃ m ∈ moments, m.EndsWell ∧ since < m.state.cycle ∧ id ∈ m.state.carried

namespace SessionState.Tracks

variable {st : SessionState} {moments : List Moment} {since : Nat} {id : ModuleId}

/-- What is done with stays done with. -/
theorem later (ht : st.Tracks moments since id) (m : Moment) :
    st.Tracks (moments ++ [m]) since id := by
  refine ⟨ht.since_le, ?_⟩
  rcases ht.place with hpending | hcarried | ⟨m', hm', hdone⟩
  · exact .inl hpending
  · exact .inr (.inl hcarried)
  · exact .inr (.inr ⟨m', List.mem_append_left _ hm', hdone⟩)

/-- A cycle that begins carries what was noted and what was carried before. -/
theorem startCycle (ht : st.Tracks moments since id) : st.startCycle.Tracks moments since id := by
  have hbegan : since < st.startCycle.cycle := Nat.lt_succ_of_le ht.since_le
  refine ⟨Nat.le_of_lt hbegan, ?_⟩
  rcases ht.place with hpending | ⟨hcarried, -⟩ | hdone
  · exact .inr (.inl ⟨IdSet.mem_insertAll.2 (.inl hpending), hbegan⟩)
  · exact .inr (.inl ⟨IdSet.mem_insertAll.2 (.inr hcarried), hbegan⟩)
  · exact .inr (.inr hdone)

/-- Noting more changes loses none. -/
theorem absorb (ht : st.Tracks moments since id) (root : String) (paths : List String) :
    (st.absorb root paths).Tracks moments since id := by
  refine ⟨ht.since_le, ?_⟩
  rcases ht.place with hpending | hrest
  · exact .inl (IdSet.mem_insertAll.2 (.inr hpending))
  · exact .inr hrest

end SessionState.Tracks

/-- What was just noted is noted. -/
theorem SessionState.tracks_absorb {root path : String} {paths : List String} {id : ModuleId}
    (hpath : path ∈ paths) (hid : ModuleId.ofPath? root path = some id) (st : SessionState)
    (moments : List Moment) : (st.absorb root paths).Tracks moments st.cycle id := by
  refine ⟨Nat.le_refl _, .inl (IdSet.mem_insertAll.2 (.inl ?_))⟩
  exact List.mem_filterMap.2 ⟨path, hpath, hid⟩

namespace Session

variable {s : Session} {st next : SessionState} {d nextDisk : Disk} {signal : Signal}
  {update : Option SessionUpdate} {moments : List Moment} {since : Nat} {id : ModuleId}

/-- Every move that does not end the session keeps track of a change. -/
theorem Moves.tracks (hmove : Moves s st d signal next update nextDisk)
    (hrunning : next.status ≠ .shutDown) (ht : st.Tracks moments since id) :
    next.Tracks (moments ++ [⟨st, d, signal, next, update, nextDisk⟩]) since id := by
  cases hmove with
  | ignores => exact ht.later _
  | closes => exact ⟨ht.since_le, (ht.later _).place⟩
  | stops => exact absurd rfl hrunning
  | begins => exact ht.startCycle.later _
  | notes paths => exact (ht.absorb _ paths).later _
  | stales paths => exact ⟨ht.since_le, ((ht.absorb _ paths).later _).place⟩
  | wakes paths => exact (ht.absorb _ paths).startCycle.later _
  | discards => exact ht.startCycle.later _
  | succeeds cycle seen durationMs snapshot written =>
    refine ⟨ht.since_le, ?_⟩
    rcases ht.place with hpending | ⟨hcarried, hsince⟩ | ⟨m, hm, hdone⟩
    · exact .inl hpending
    · -- this is the good cycle that took care of the change
      refine .inr (.inr ⟨_, List.mem_append_right _ (List.mem_singleton_self _), ?_, hsince,
        hcarried⟩)
      exact ⟨_, rfl, by simp⟩
    · exact .inr (.inr ⟨m, List.mem_append_left _ hm, hdone⟩)
  | fails => exact ⟨ht.since_le, (ht.later _).place⟩

/-- A change is tracked from the move that takes it in. -/
theorem Moves.tracks_of_receives {paths : List String} {path : String}
    (hmove : Moves s st d (.changed paths) next update nextDisk) (hrunning : next.status ≠ .shutDown)
    (hlistens : st.listens = true) (hpath : path ∈ paths)
    (hid : ModuleId.ofPath? s.bundler.profile.root path = some id) :
    next.Tracks moments st.cycle id := by
  have hnoted := SessionState.tracks_absorb hpath hid st moments
  cases hmove with
  | ignores signal hchanged => simp [hchanged paths rfl] at hlistens
  | stops => exact absurd rfl hrunning
  | notes => exact hnoted
  | stales => exact ⟨hnoted.since_le, hnoted.place⟩
  | wakes => exact hnoted.startCycle

/-! ## Runs -/

/-- Every change that was taken in is tracked until the session ends. -/
theorem tracks_of_receives (s : Session) (d : Disk) (signals : List Signal) :
    ∀ m ∈ (s.history d signals).moments, ∀ id, m.Receives s.bundler.profile.root id →
      (s.history d signals).state.status ≠ .shutDown →
        (s.history d signals).state.Tracks (s.history d signals).moments m.state.cycle id := by
  refine history_induction (s := s) (d := d) (P := fun h => ∀ m ∈ h.moments, ∀ id,
    m.Receives s.bundler.profile.root id → h.state.status ≠ .shutDown →
      h.state.Tracks h.moments m.state.cycle id) ?_ ?_ signals
  · intro m hm
    simp at hm
  · intro h signal next update nextDisk ih _ hmove m hm id hreceives hrunning
    have hbefore : h.state.status ≠ .shutDown := by
      intro hended
      rw [(hmove.eq_of_shutDown hended).1] at hrunning
      exact hrunning hended
    rcases List.mem_append.1 hm with hm | hm
    · exact hmove.tracks hrunning (ih m hm id hreceives hbefore)
    · obtain rfl := List.mem_singleton.1 hm
      obtain ⟨hlistens, paths, hsignal, path, hpath, hid⟩ := hreceives
      simp only at hsignal hlistens
      subst hsignal
      exact hmove.tracks_of_receives hrunning hlistens hpath hid

/-- A session that ends because nothing can come any more was waiting. -/
theorem Moves.exists_ready (hmove : Moves s st d signal next update nextDisk)
    (hends : Moment.RunsOut ⟨st, d, signal, next, update, nextDisk⟩) :
    (∃ page, st.status = .ready page) ∧ next = st.stop := by
  obtain ⟨hrunning, hended, hcause⟩ := hends
  cases hmove with
  | stops signal _ hstop =>
    refine ⟨?_, rfl⟩
    rcases hstop with htold | hready
    · exact (hcause htold).2
    · exact hready
  | ignores => exact absurd hended hrunning
  | closes hbefore => exact absurd hended hrunning
  | begins => simp [SessionState.startCycle] at hended
  | notes => exact absurd hended hrunning
  | stales => simp at hended
  | wakes => simp [SessionState.startCycle] at hended
  | discards => simp [SessionState.startCycle] at hended
  | succeeds => simp [SessionState.succeed] at hended
  | fails => simp [SessionState.fail] at hended

/-- A session that ended because nothing could come any more has nothing left to do. -/
theorem settled_of_runsOut (s : Session) (d : Disk) (signals : List Signal) :
    ∀ m ∈ (s.history d signals).moments, m.RunsOut →
      m.next.pending = [] ∧ ¬(s.history d signals).WentStale m.next.cycle := by
  suffices hinv : (s.history d signals).Ordered ∧ ∀ m ∈ (s.history d signals).moments, m.RunsOut →
      (s.history d signals).state = m.next ∧ m.next.pending = [] ∧
        ¬(s.history d signals).WentStale m.next.cycle from
    fun m hm hends => (hinv.2 m hm hends).2
  refine history_induction (s := s) (d := d) (P := fun h => h.Ordered ∧ ∀ m ∈ h.moments,
    m.RunsOut → h.state = m.next ∧ m.next.pending = [] ∧ ¬h.WentStale m.next.cycle) ?_ ?_ signals
  · refine ⟨ordered_history s d [], ?_⟩
    intro m hm
    simp at hm
  · rintro h signal next update nextDisk ⟨hordered, ih⟩ hsound hmove
    refine ⟨ordered_of_turn hordered hsound (hmove.sound hsound) hmove.turn, ?_⟩
    intro m hm hends
    rcases List.mem_append.1 hm with hm | hm
    · -- the session had ended by then, so this move did nothing
      obtain ⟨hstate, hpending, hfresh⟩ := ih m hm hends
      have hended : h.state.status = .shutDown := hstate ▸ hends.2.1
      obtain ⟨rfl, -⟩ := hmove.eq_of_shutDown hended
      refine ⟨hstate, hpending, ?_⟩
      intro hstale
      rcases SessionHistory.wentStale_append hstale with hnow | hbefore
      · simp [hended] at hnow
      · exact hfresh hbefore
    · obtain rfl := List.mem_singleton.1 hm
      obtain ⟨⟨page, hready⟩, rfl⟩ := hmove.exists_ready hends
      refine ⟨rfl, hsound.ready page hready, ?_⟩
      intro hstale
      rcases SessionHistory.wentStale_append hstale with hnow | hbefore
      · simp [SessionState.stop] at hnow
      · rcases hordered.stale _ hbefore with hover | ⟨-, hbuilding | hended⟩
        · exact Nat.lt_irrefl _ hover
        · simp [hready] at hbuilding
        · simp [hready] at hended

/-- No change is lost. A change that was taken in is, at the end of every run in which the session
has not ended, noted, or carried, or was carried by a cycle that began after it came and ended well.
A session that ended because nothing could come any more had nothing noted left, and its last cycle
was not stale. -/
theorem changes_accounted (s : Session) (d : Disk) (signals : List Signal) :
    (∀ m ∈ (s.history d signals).moments, ∀ id, m.Receives s.bundler.profile.root id →
      (s.history d signals).state.status ≠ .shutDown →
        (s.history d signals).Accounts m.state.cycle id) ∧
    ∀ m ∈ (s.history d signals).moments, m.RunsOut →
      m.next.pending = [] ∧ ¬(s.history d signals).WentStale m.next.cycle := by
  refine ⟨?_, settled_of_runsOut s d signals⟩
  intro m hm id hreceives hrunning
  have htracks := tracks_of_receives s d signals m hm id hreceives hrunning
  rcases htracks.place with hpending | ⟨hcarried, -⟩ | hdone
  · exact .inl hpending
  · exact .inr (.inl hcarried)
  · exact .inr (.inr hdone)

/-- A session over a page that is nowhere: none of its cycles ends well. -/
def nowhere : Session :=
  { bundler :=
      { profile :=
          .ofLayer { root := some "/app", entries := some [("main", ["./a"])] } .production {}
        registry := [] }
    pagePath := none }

/-- The first cycle goes stale and is thrown away, the second one fails, and then the stream of
changes ends. -/
def lateChange : List Signal :=
  [.begun, .changed ["/app/a.js"], .built ⟨.empty, "/app"⟩ 0, .built ⟨.empty, "/app"⟩ 0, .closed]

/-- A disk with nothing on it. -/
def blank : Disk := { tree := .empty, base := "/" }

/-- What came late is carried by the second cycle; when the session ends it was not stale. -/
theorem changes_accounted_lateChange :
    (∃ m ∈ (nowhere.history blank (lateChange.take 4)).moments, m.Receives "/app" ⟨"a.js"⟩ ∧
      (nowhere.history blank (lateChange.take 4)).state.status ≠ .shutDown ∧
      (nowhere.history blank (lateChange.take 4)).Accounts m.state.cycle ⟨"a.js"⟩) ∧
    ∃ m ∈ (nowhere.history blank lateChange).moments, m.RunsOut ∧ m.next.pending = [] ∧
      ¬(nowhere.history blank lateChange).WentStale m.next.cycle := by
  have haccounts := (changes_accounted nowhere blank (lateChange.take 4)).1
  have hsettled := (changes_accounted nowhere blank lateChange).2
  constructor
  · obtain ⟨m, hm⟩ : ∃ m, (nowhere.history blank (lateChange.take 4)).moments[1]? = some m :=
      ⟨_, rfl⟩
    have hmem := List.mem_of_getElem? hm
    have hreceives : m.Receives "/app" ⟨"a.js"⟩ := by
      obtain rfl := Option.some.inj hm
      exact ⟨rfl, _, rfl, _, List.mem_singleton_self _, by decide⟩
    have hrunning : (nowhere.history blank (lateChange.take 4)).state.status ≠ .shutDown := by
      decide +kernel
    exact ⟨m, hmem, hreceives, hrunning, haccounts m hmem _ hreceives hrunning⟩
  · obtain ⟨m, hm⟩ : ∃ m, (nowhere.history blank lateChange).moments[4]? = some m := ⟨_, rfl⟩
    have hmem := List.mem_of_getElem? hm
    have hends : m.RunsOut := by
      obtain rfl := Option.some.inj hm
      refine ⟨by decide +kernel, by decide +kernel, ?_⟩
      intro htold
      exact absurd htold (by simp [moment])
    exact ⟨m, hmem, hends, hsettled m hmem hends⟩

end Session

end Bindery
