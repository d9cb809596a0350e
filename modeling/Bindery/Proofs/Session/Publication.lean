import Mathlib.Data.List.Chain
import Bindery.Proofs.Bundle.Single
import Bindery.Proofs.Graph.Change
import Bindery.Proofs.Session.Carry

/-!
# What a session publishes

A cycle that ends without having gone stale publishes one update, and no other cycle publishes
anything. The builds of the good ones among these follow one another: each goes on from the one
that was published before it, so what an update names as changed is what running pages have to take
over. The last one is kept as the last good build.

* `Session.successes` : the good updates of a run with what was built for them.
* `Session.Step` : what one move does to the updates, the last good build and the page.
* `Session.published_history` : what holds of every run.
* `Session.not_changed_retyped` : over a production profile no module is named.
-/

namespace Bindery

/-! ## The builds of a session -/

namespace Bundler

variable {b : Bundler} {made : Bundle}

theorem server?_eq_none (h : b.profile.isDevelopment = false) : b.profile.server? = none := by
  unfold Profile.isDevelopment Profile.mode at h
  unfold Profile.server?
  cases hsettings : b.profile.settings with
  | production settings => rfl
  | development settings => simp [hsettings] at h

/-- Running pages of a development build are told all that changed. -/
theorem exists_update? (h : b.profile.isDevelopment = true) (made : Bundle) :
    ∃ u, b.update? made = some u ∧ u.changed = made.changes.changedIds := by
  unfold Profile.isDevelopment Profile.mode at h
  unfold update? Profile.server?
  cases hsettings : b.profile.settings with
  | production settings => simp [hsettings] at h
  | development settings => exact ⟨_, rfl, rfl⟩

end Bundler

namespace Session

variable {s : Session} {st next : SessionState} {d d' nextDisk : Disk} {signal : Signal}
  {update : Option SessionUpdate} {seen : Project} {snapshot : Snapshot} {last : Snapshot}

/-- The first good build of a session tells running pages nothing. -/
theorem update_of_first (hlast : st.lastGood = none)
    (h : s.build st seen d = (.ok snapshot, d')) : snapshot.update = none := by
  unfold build at h
  rw [hlast] at h
  obtain ⟨d₁, -, hrebuild⟩ := Bundler.build_ok.1 h
  exact (Bundler.rebuild_spec hrebuild).2

/-- Every later one tells them what changed since the one before. -/
theorem changes_of_later (hlast : st.lastGood = some last)
    (h : s.build st seen d = (.ok snapshot, d')) :
    snapshot.changes = .between last.graph snapshot.graph ∧
      snapshot.update = s.bundler.update? snapshot.toBundle := by
  unfold build at h
  rw [hlast] at h
  exact Bundler.rebuild_spec h

/-- What is published about a good build that another one came before: what differs between them. -/
theorem mem_changed_iff (hdevelopment : s.bundler.profile.isDevelopment = true)
    (hlast : st.lastGood = some last) (h : s.build st seen d = (.ok snapshot, d'))
    (cycle durationMs : Nat) (id : ModuleId) :
    id ∈ (SessionUpdate.ofSnapshot cycle snapshot durationMs).changed ↔
      last.graph.Differs snapshot.graph id := by
  obtain ⟨hchanges, hupdate⟩ := changes_of_later hlast h
  obtain ⟨u, hsome, hchanged⟩ := s.bundler.exists_update? hdevelopment snapshot.toBundle
  have hpublished : (SessionUpdate.ofSnapshot cycle snapshot durationMs).changed = u.changed := by
    simp [SessionUpdate.ofSnapshot, hupdate, hsome]
  rw [hpublished, hchanged, hchanges]
  exact ChangeSet.mem_changedIds_between

/-- Without running pages to update, every update asks for a full reload and names no module. -/
theorem reloads_of_production (hproduction : s.bundler.profile.isDevelopment = false)
    (h : s.build st seen d = (.ok snapshot, d')) (cycle durationMs : Nat) :
    (SessionUpdate.ofSnapshot cycle snapshot durationMs).changed = [] ∧
      (SessionUpdate.ofSnapshot cycle snapshot durationMs).fullReload = true := by
  have hquiet : snapshot.update = none := by
    cases hlast : st.lastGood with
    | none => exact update_of_first hlast h
    | some last =>
      rw [(changes_of_later hlast h).2, Bundler.update?, Bundler.server?_eq_none hproduction]
      rfl
  simp [SessionUpdate.ofSnapshot, hquiet]

/-! ## Good updates -/

/-- What the build that came to its end at this moment made, if it was a good one. -/
def made? (s : Session) (m : Moment) : Option Snapshot :=
  match m.signal with
  | .built seen _ => (s.build m.state seen m.disk).1.toOption
  | _ => none

/-- The good update that was published at this moment, with what was built for it. -/
def success? (s : Session) (m : Moment) : Option (SessionUpdate × Snapshot) :=
  match m.update, s.made? m with
  | some u, some snapshot => if u.success then some (u, snapshot) else none
  | _, _ => none

/-- The good updates of a run with what was built for them, in order. -/
def successes (s : Session) (h : SessionHistory) : List (SessionUpdate × Snapshot) :=
  h.moments.filterMap s.success?

theorem successes_append (s : Session) (moments : List Moment) (m : Moment) (st : SessionState)
    (d : Disk) :
    s.successes { moments := moments ++ [m], state := st, disk := d } =
      moments.filterMap s.success? ++ (s.success? m).toList := by
  cases hsuccess : s.success? m <;> simp [successes, hsuccess]

/-- What one move does to the updates, the last good build and the page. -/
inductive Step (s : Session) (st next : SessionState) (update : Option SessionUpdate)
    (success : Option (SessionUpdate × Snapshot)) : Prop where
  /-- Nothing is published, and the session waits after the move only if it did before. -/
  | rests (hquiet : update = none) (hsuccess : success = none) (hlast : next.lastGood = st.lastGood)
      (hready : ∀ page, next.status = .ready page → st.status = .ready page)
  /-- A failure is published, and its page is shown. -/
  | fails (u : SessionUpdate) (page : ErrorPage) (hupdate : update = some u)
      (hfailed : u.success = false) (hsuccess : success = none)
      (hlast : next.lastGood = st.lastGood) (hready : next.status = .ready (some page))
  /-- A good build is published. -/
  | succeeds (u : SessionUpdate) (snapshot : Snapshot) (hupdate : update = some u)
      (hgood : u.success = true) (hsuccess : success = some (u, snapshot))
      (hlast : next.lastGood = some snapshot) (hready : next.status = .ready none)
      (hchanged : s.bundler.profile.isDevelopment = true → ∀ last, st.lastGood = some last →
        ∀ id, id ∈ u.changed ↔ last.graph.Differs snapshot.graph id)
      (hreloads : s.bundler.profile.isDevelopment = false → u.changed = [] ∧ u.fullReload = true)

theorem Moves.publishes (hmove : Moves s st d signal next update nextDisk) :
    Step s st next update (s.success? ⟨st, d, signal, next, update, nextDisk⟩) := by
  cases hmove with
  | ignores => exact .rests rfl rfl rfl fun _ h => h
  | closes => exact .rests rfl rfl rfl fun _ h => h
  | stops => exact .rests rfl rfl rfl (by simp [SessionState.stop])
  | begins => exact .rests rfl rfl rfl (by simp [SessionState.startCycle])
  | notes => exact .rests rfl rfl rfl fun _ h => h
  | stales => exact .rests rfl rfl rfl (by simp)
  | wakes => exact .rests rfl rfl rfl (by simp [SessionState.startCycle])
  | discards => exact .rests rfl rfl rfl (by simp [SessionState.startCycle])
  | succeeds cycle seen durationMs snapshot written hbuilding hbuild =>
    have hmade : ∀ next update nextDisk,
        s.made? ⟨st, d, .built seen durationMs, next, update, nextDisk⟩ = some snapshot := by
      intro next update nextDisk
      simp [made?, hbuild, Except.toOption]
    refine .succeeds _ snapshot rfl (by simp) ?_ rfl rfl ?_ ?_
    · simp [success?, hmade]
    · intro hdevelopment last hlast id
      exact mem_changed_iff hdevelopment hlast hbuild cycle durationMs id
    · intro hproduction
      exact reloads_of_production hproduction hbuild cycle durationMs
  | fails cycle seen durationMs e left hbuilding hbuild =>
    refine .fails _ (.ofError e) rfl (by simp) ?_ rfl rfl
    simp [success?, made?, hbuild, Except.toOption]

end Session

/-! ## Runs -/

/-- What holds of the good updates of a run: their builds follow one another. -/
structure SessionHistory.Follows (s : Session) (h : SessionHistory) : Prop where
  /-- Each good update belongs to one build. -/
  successes : (s.successes h).map (·.1) = h.updates.filter (·.success)
  /-- The last good build is the one of the latest of them. -/
  lastGood : h.state.lastGood = (s.successes h).getLast?.map (·.2)
  /-- In development, a good update names the modules that differ from the good update before. -/
  changed : s.bundler.profile.isDevelopment = true → (s.successes h).IsChain fun older newer =>
    ∀ id, id ∈ newer.1.changed ↔ older.2.graph.Differs newer.2.graph id
  /-- Otherwise it names none and asks for a full reload. -/
  reloads : s.bundler.profile.isDevelopment = false →
    ∀ x ∈ s.successes h, x.1.changed = [] ∧ x.1.fullReload = true
  /-- While a session waits, a page is shown exactly if the latest update is about a failure. -/
  ready : ∀ page, h.state.status = .ready page →
    ∃ u, h.updates.getLast? = some u ∧ (page.isSome = true ↔ u.success = false)

/-- What holds of all that a run publishes. -/
structure SessionHistory.Published (s : Session) (h : SessionHistory) : Prop extends
    h.Follows s where
  /-- Updates are numbered in order. -/
  increasing : h.updates.Pairwise fun u v => u.cycle < v.cycle
  /-- A cycle that comes to its end without having gone stale publishes exactly one. -/
  once : ∀ cycle, h.Completes cycle → ¬h.WentStale cycle →
    ∃ u, h.updates.filter (·.cycle = cycle) = [u]
  /-- Any other publishes none. -/
  never : ∀ cycle, ¬(h.Completes cycle ∧ ¬h.WentStale cycle) →
    h.updates.filter (·.cycle = cycle) = []
  /-- Nothing that happens to a stale or interrupted cycle changes the last good build or the
  page. -/
  untouched : ∀ m ∈ h.moments, ∀ cycle stale, m.state.status = .building cycle stale →
    h.WentStale cycle ∨ ¬h.Completes cycle →
      m.next.lastGood = m.state.lastGood ∧ m.next.status.page? = m.state.status.page?
  /-- A session that has ended does not go on. -/
  ended : ∀ m ∈ h.moments, m.state.status = .shutDown → m.next.status = .shutDown

namespace SessionHistory

/-- Of updates that are numbered in order only one has a given number. -/
theorem filter_cycle_eq {updates : List SessionUpdate} {u : SessionUpdate}
    (hincreasing : updates.Pairwise fun u v => u.cycle < v.cycle) (hu : u ∈ updates) :
    updates.filter (·.cycle = u.cycle) = [u] := by
  have hmem : u ∈ updates.filter (·.cycle = u.cycle) := List.mem_filter.2 ⟨hu, by simp⟩
  have hnumber : ∀ v ∈ updates.filter (·.cycle = u.cycle), v.cycle = u.cycle := by
    intro v hv
    exact of_decide_eq_true (List.mem_filter.1 hv).2
  have hordered := hincreasing.filter fun v => v.cycle = u.cycle
  cases hfiltered : updates.filter (·.cycle = u.cycle) with
  | nil =>
    rw [hfiltered] at hmem
    cases hmem
  | cons v r =>
    rw [hfiltered] at hmem hnumber hordered
    cases r with
    | nil => rw [List.mem_singleton.1 hmem]
    | cons w r =>
      -- two updates of one cycle would not be in order
      have hlt := (List.pairwise_cons.1 hordered).1 w List.mem_cons_self
      have hv := hnumber v List.mem_cons_self
      have hw := hnumber w (List.mem_cons_of_mem v List.mem_cons_self)
      omega

end SessionHistory

namespace Session

variable {s : Session} {st next : SessionState} {d nextDisk : Disk} {signal : Signal}
  {update : Option SessionUpdate} {h : SessionHistory} {m : Moment} {signals : List Signal}

/-- Completing a cycle that is not stale publishes its update. -/
theorem finish_publishes (s : Session) (seen : Project) (durationMs : Nat) (st : SessionState)
    (cycle : Nat) (d : Disk) :
    ∃ u, (s.finish seen durationMs st cycle false d).1.2 = some u ∧ u.cycle = cycle := by
  rcases hbuild : s.build st seen d with ⟨result, written⟩
  cases result with
  | ok snapshot =>
    rw [finish_of_ok hbuild]
    exact ⟨_, rfl, by simp⟩
  | error e =>
    rw [finish_of_error hbuild]
    exact ⟨_, rfl, by simp⟩

/-- A good end of a cycle is published. -/
theorem exists_update_of_completes {cycle : Nat}
    (hcompletes : (s.history d signals).Completes cycle)
    (hfresh : ¬(s.history d signals).WentStale cycle) :
    ∃ u ∈ (s.history d signals).updates, u.cycle = cycle := by
  obtain ⟨m, hm, stale, seen, durationMs, hbuilding, hsignal⟩ := hcompletes
  have hstale : stale = false := by
    by_contra hstale
    rw [Bool.not_eq_false] at hstale
    subst hstale
    exact hfresh ((ordered_history s d signals).found m hm cycle hbuilding)
  subst hstale
  obtain ⟨u, hpublished, hcycle⟩ := s.finish_publishes seen durationMs m.state cycle m.disk
  have hupdate : m.update = some u := by
    rw [eq_moment_of_mem hm]
    simp only [moment, hsignal, step, hbuilding]
    exact hpublished
  exact ⟨u, SessionHistory.mem_updates.2 ⟨m, hm, hupdate⟩, hcycle⟩

/-- A move that does not publish leaves a running cycle's last good build and page as they are. -/
theorem Moves.untouched (hmove : Moves s st d signal next update nextDisk) {cycle : Nat}
    {stale : Bool} (hbuilding : st.status = .building cycle stale) (hquiet : update = none) :
    next.lastGood = st.lastGood ∧ next.status.page? = st.status.page? := by
  have hpage : st.status.page? = none := by simp [hbuilding, SessionStatus.page?]
  rw [hpage]
  cases hmove.publishes with
  | rests _ _ hlast hready =>
    refine ⟨hlast, ?_⟩
    cases hstatus : next.status with
    | ready page => simp [hready page hstatus] at hbuilding
    | idle => rfl
    | building cycle stale => rfl
    | shutDown => rfl
  | fails u page hupdate => simp [hquiet] at hupdate
  | succeeds u snapshot hupdate => simp [hquiet] at hupdate

/-- Every move goes on from the good updates before it. -/
theorem follows_of_publishes (ih : h.Follows s) (m : Moment) (nextDisk : Disk)
    (hstep : Step s h.state next m.update (s.success? m)) :
    SessionHistory.Follows s
      { moments := h.moments ++ [m], state := next, disk := nextDisk } := by
  have hupdates := SessionHistory.updates_append h.moments m next nextDisk
  have hsuccesses := s.successes_append h.moments m next nextDisk
  have hbefore : h.moments.filterMap (·.update) = h.updates := rfl
  have hgood : h.moments.filterMap s.success? = s.successes h := rfl
  rw [hbefore] at hupdates
  rw [hgood] at hsuccesses
  cases hstep with
  | rests hquiet hsuccess hlast hready =>
    rw [hquiet, Option.toList_none, List.append_nil] at hupdates
    rw [hsuccess, Option.toList_none, List.append_nil] at hsuccesses
    constructor
    · rw [hupdates, hsuccesses]
      exact ih.successes
    · rw [hsuccesses]
      exact hlast.trans ih.lastGood
    · rw [hsuccesses]
      exact ih.changed
    · rw [hsuccesses]
      exact ih.reloads
    · intro page hpage
      rw [hupdates]
      exact ih.ready page (hready page hpage)
  | fails u page hupdate hfailed hsuccess hlast hready =>
    rw [hupdate, Option.toList_some] at hupdates
    rw [hsuccess, Option.toList_none, List.append_nil] at hsuccesses
    constructor
    · rw [hupdates, hsuccesses, List.filter_append]
      simpa [hfailed] using ih.successes
    · rw [hsuccesses]
      exact hlast.trans ih.lastGood
    · rw [hsuccesses]
      exact ih.changed
    · rw [hsuccesses]
      exact ih.reloads
    · intro page' hpage
      obtain rfl : some page = page' := by
        rw [hready] at hpage
        exact SessionStatus.ready.inj hpage
      exact ⟨u, by rw [hupdates, List.getLast?_concat], by simp [hfailed]⟩
  | succeeds u snapshot hupdate hok hsuccess hlast hready hchanged hreloads =>
    rw [hupdate, Option.toList_some] at hupdates
    rw [hsuccess, Option.toList_some] at hsuccesses
    constructor
    · rw [hupdates, hsuccesses, List.filter_append, List.map_append, ih.successes]
      simp [hok]
    · rw [hsuccesses, List.getLast?_concat]
      exact hlast
    · intro hdevelopment
      rw [hsuccesses]
      refine List.isChain_append.2 ⟨ih.changed hdevelopment, List.isChain_singleton _, ?_⟩
      rintro ⟨v, older⟩ hv newer hnewer
      -- what was built last is what the new build went on from
      have holder : h.state.lastGood = some older := by
        rw [ih.lastGood, Option.mem_def.1 hv]
        rfl
      obtain rfl : (u, snapshot) = newer := by simpa using hnewer
      exact hchanged hdevelopment older holder
    · intro hproduction x hx
      rw [hsuccesses] at hx
      rcases List.mem_append.1 hx with hx | hx
      · exact ih.reloads hproduction x hx
      · obtain rfl := List.mem_singleton.1 hx
        exact hreloads hproduction
    · intro page hpage
      obtain rfl : none = page := by
        rw [hready] at hpage
        exact SessionStatus.ready.inj hpage
      exact ⟨u, by rw [hupdates, List.getLast?_concat], by simp [hok]⟩

theorem follows_history (s : Session) (d : Disk) (signals : List Signal) :
    (s.history d signals).Follows s := by
  refine history_induction (s := s) (d := d) (P := fun h => h.Follows s) ?_ ?_ signals
  · constructor <;> simp [Session.successes, SessionHistory.updates]
  · intro h signal next update nextDisk ih _ hmove
    exact follows_of_publishes ih ⟨h.state, h.disk, signal, next, update, nextDisk⟩ nextDisk
      hmove.publishes

/-- What a session publishes, over every run. -/
theorem published_history (s : Session) (d : Disk) (signals : List Signal) :
    (s.history d signals).Published s := by
  have hordered := ordered_history s d signals
  have hfollows := follows_history s d signals
  have hnever : ∀ cycle, ¬((s.history d signals).Completes cycle ∧
      ¬(s.history d signals).WentStale cycle) → ∀ u ∈ (s.history d signals).updates,
        u.cycle ≠ cycle := by
    rintro cycle hnot u hu rfl
    exact hnot (hordered.published u hu).2
  refine ⟨hfollows, hordered.increasing, ?_, ?_, ?_, ?_⟩
  · intro cycle hcompletes hfresh
    obtain ⟨u, hu, rfl⟩ := exists_update_of_completes hcompletes hfresh
    exact ⟨u, SessionHistory.filter_cycle_eq hordered.increasing hu⟩
  · intro cycle hnot
    rw [List.filter_eq_nil_iff]
    intro u hu
    simpa using hnever cycle hnot u hu
  · intro m hm cycle stale hbuilding hbad
    obtain ⟨-, -, hmove⟩ := moves_of_mem hm
    have hquiet : m.update = none := by
      cases hupdate : m.update with
      | none => rfl
      | some u =>
        have hu := SessionHistory.mem_updates.2 ⟨m, hm, hupdate⟩
        have hturn := hmove.turn
        rw [hupdate] at hturn
        have hcycle : cycle = u.cycle := by
          have hrunning := hturn.of_publishes.1
          rw [hbuilding] at hrunning
          exact (SessionStatus.building.inj hrunning).1
        refine absurd hcycle.symm (hnever cycle ?_ u hu)
        rintro ⟨hcompletes, hfresh⟩
        rcases hbad with hstale | hinterrupted
        · exact hfresh hstale
        · exact hinterrupted hcompletes
    exact hmove.untouched hbuilding hquiet
  · intro m hm hended
    obtain ⟨-, -, hmove⟩ := moves_of_mem hm
    rw [(hmove.eq_of_shutDown hended).1]
    exact hended

/-! ## Production profiles -/

open Path Location

/-- A session over a production profile with one page. -/
def shop : Session :=
  { bundler :=
      { profile :=
          .ofLayer
            { root := some "/app", entries := some [("main", ["a"])]
              extensions := some [".ts", ".js"], outputPath := some "out"
              manifestPath := some "assets.json", minimize := some false
              sourceMap := some .none } .production {}
        registry := [] }
    pagePath := none }

/-- The page is an untyped script. -/
def untyped : Project := ⟨⟨[(["app", "a.js"], .file "".toUTF8)]⟩, "/app"⟩

/-- A typed script takes its place. -/
def typed : Project :=
  ⟨⟨[(["app", "a.js"], .file "".toUTF8), (["app", "a.ts"], .file "".toUTF8)]⟩, "/app"⟩

/-- The page becomes typed between two builds. -/
def retyped : List Signal := [.begun, .built untyped 0, .changed ["/app/a.ts"], .built typed 0]

/-- Where a session over the shop writes: in the output directory and beside it. -/
def shelves (loc : Location) : Prop := loc <+: ["app", "out"]

/-- The files of a single script. -/
theorem artifacts_of_isSingle {made : Bundle} (h : shop.bundler.isSingle made = true)
    (hmade : made.artifacts = shop.bundler.artifacts made.graph made.outputs made.chunks) :
    ∃ a bytes, made.artifacts = [a] ∧ a.file = FileName.ofChunk "main" .entryScript bytes true := by
  have hhashed : shop.bundler.has .fingerprint = true := by decide
  have hmaps : shop.bundler.has .sourceMaps = false := by decide
  exact Bundler.artifacts_of_isSingle h hhashed hmaps hmade

/-- A single script and the manifest are written wherever the shop has been writing. -/
theorem shop_writes {made : Bundle} {a : Artifact} {bytes : ByteArray} (hartifacts : made.artifacts = [a])
    (hfile : a.file = FileName.ofChunk "main" .entryScript bytes true) (isRebuild : Bool)
    (hreliable : d.Reliable) (habsolute : isAbsolute d.base = true) (hwithin : d.tree.Within shelves) :
    ∃ snapshot d', shop.bundler.write made isRebuild d = (.ok snapshot, d') ∧ d'.Reliable ∧
      isAbsolute d'.base = true ∧ d'.tree.Within shelves := by
  have hout : shop.bundler.profile.outputDirectory = "/app/out" := by decide
  have htarget : shop.bundler.manifestTarget? = some "/app/assets.json" := by decide
  exact Bundler.write_single_out hout htarget hartifacts hfile isRebuild hreliable habsolute hwithin

/-- Both builds compile; only the second one has the typed script. -/
theorem compile_retyped : ∃ made₁ made₂, shop.bundler.compile untyped none [] = .ok made₁ ∧
    shop.bundler.compile typed (some made₁) [⟨"a.ts"⟩] = .ok made₂ ∧
      shop.bundler.isSingle made₁ = true ∧ shop.bundler.isSingle made₂ = true ∧
        made₁.graph.contains ⟨"a.ts"⟩ = false ∧ made₂.graph.contains ⟨"a.ts"⟩ = true := by
  have hcheck : (shop.bundler.compile untyped none []).toOption.any (fun made₁ =>
      (shop.bundler.compile typed (some made₁) [⟨"a.ts"⟩]).toOption.any fun made₂ =>
        shop.bundler.isSingle made₁ && shop.bundler.isSingle made₂
          && !made₁.graph.contains ⟨"a.ts"⟩ && made₂.graph.contains ⟨"a.ts"⟩) = true := by
    decide +kernel
  obtain ⟨made₁, hfirst, hmade₁⟩ := exists_ok_of_any hcheck
  obtain ⟨made₂, hsecond, hmade₂⟩ := exists_ok_of_any hmade₁
  simp only [Bool.and_eq_true, Bool.not_eq_true'] at hmade₂
  obtain ⟨⟨⟨hsingle₁, hsingle₂⟩, hnone⟩, hsome⟩ := hmade₂
  exact ⟨made₁, made₂, hfirst, hsecond, hsingle₁, hsingle₂, hnone, hsome⟩

/-- Both cycles publish a success, and their graphs differ, but the second one names no module. -/
theorem not_changed_retyped : ¬(shop.successes (shop.history blank retyped)).IsChain
    fun older newer => ∀ id, id ∈ newer.1.changed ↔ older.2.graph.Differs newer.2.graph id := by
  obtain ⟨made₁, made₂, hcompile₁, hcompile₂, hsingle₁, hsingle₂, hnone, hsome⟩ := compile_retyped
  obtain ⟨_, hmade₁⟩ := Bundler.compile_spec hcompile₁
  obtain ⟨_, hmade₂⟩ := Bundler.compile_spec hcompile₂
  obtain ⟨a₁, bytes₁, hartifacts₁, hfile₁⟩ := artifacts_of_isSingle hsingle₁ hmade₁.artifacts
  obtain ⟨a₂, bytes₂, hartifacts₂, hfile₂⟩ := artifacts_of_isSingle hsingle₂ hmade₂.artifacts
  -- the first cycle
  obtain ⟨first, d₁, hwrite₁, hreliable₁, habsolute₁, hwithin₁⟩ :=
    shop_writes hartifacts₁ hfile₁ false (d := blank) (fun _ => rfl) rfl .empty
  have hbundle₁ := (Bundler.write_ok hwrite₁).1
  obtain ⟨st₁, hst₁⟩ : ∃ st, st = SessionState.startCycle {} := ⟨_, rfl⟩
  have hbuild₁ : shop.build st₁ untyped blank = (.ok first, d₁) := by
    rw [hst₁]
    exact Bundler.build_ok.2 ⟨blank, rfl, Bundler.rebuild_ok.2 ⟨made₁, hcompile₁, hwrite₁⟩⟩
  have hstep₁ : shop.step st₁ (.built untyped 0) blank =
      ((st₁.succeed first, some (.ofSnapshot 1 first 0)), d₁) := by
    have hfinish : shop.step st₁ (.built untyped 0) = shop.finish untyped 0 st₁ 1 false := by
      rw [hst₁]
      rfl
    rw [hfinish, finish_of_ok hbuild₁]
    rfl
  -- the change
  obtain ⟨st₂, hst₂⟩ : ∃ st, st = (st₁.succeed first).absorb "/app" ["/app/a.ts"] := ⟨_, rfl⟩
  have hpending : st₂.pending = [⟨"a.ts"⟩] := by
    have hid : ModuleId.ofPath? "/app" "/app/a.ts" = some ⟨"a.ts"⟩ := by decide
    have hnone : st₁.pending = [] := hst₁ ▸ rfl
    rw [hst₂]
    show IdSet.insertAll (["/app/a.ts"].filterMap (ModuleId.ofPath? "/app")) st₁.pending = _
    rw [hnone, List.filterMap_cons, hid]
    rfl
  have hstep₂ : shop.step (st₁.succeed first) (.changed ["/app/a.ts"]) d₁ =
      ((st₂.startCycle, none), d₁) := by
    have hreceive : (st₁.succeed first).receive "/app" ["/app/a.ts"] = st₂.startCycle := by
      rw [SessionState.receive, ← hst₂, hpending]
      rfl
    rw [← hreceive, hst₁]
    rfl
  have hcarried : st₂.startCycle.carried = [⟨"a.ts"⟩] := by
    have hnone : st₂.carried = [] := hst₂ ▸ rfl
    show IdSet.insertAll st₂.pending st₂.carried = _
    rw [hpending, hnone]
    rfl
  -- the second cycle
  obtain ⟨second, d₂, hwrite₂, -, -, -⟩ :=
    shop_writes hartifacts₂ hfile₂ true hreliable₁ habsolute₁ hwithin₁
  have hbundle₂ := (Bundler.write_ok hwrite₂).1
  have hlast : st₂.startCycle.lastGood = some first := hst₂ ▸ rfl
  have hbuild₂ : shop.build st₂.startCycle typed d₁ = (.ok second, d₂) := by
    rw [← hbundle₁] at hcompile₂
    rw [build, hlast, hcarried]
    exact Bundler.rebuild_ok.2 ⟨made₂, hcompile₂, hwrite₂⟩
  have hstep₃ : shop.step st₂.startCycle (.built typed 0) d₁ =
      ((st₂.startCycle.succeed second, some (.ofSnapshot 2 second 0)), d₂) := by
    have hfinish : shop.step st₂.startCycle (.built typed 0) =
        shop.finish typed 0 st₂.startCycle 2 false := by
      rw [hst₂, hst₁]
      rfl
    rw [hfinish, finish_of_ok hbuild₂]
    rfl
  have hsuccesses : shop.successes (shop.history blank retyped) =
      [(.ofSnapshot 1 first 0, first), (.ofSnapshot 2 second 0, second)] := by
    have hbegun : shop.step {} .begun blank = ((st₁, none), blank) := by
      rw [hst₁]
      rfl
    simp [successes, history, retyped, extend, moment, hbegun, hstep₁, hstep₂, hstep₃,
      List.filterMap_cons, success?, made?, hbuild₁, hbuild₂, Except.toOption]
  have hproduction : shop.bundler.profile.isDevelopment = false := by decide
  rw [hsuccesses, List.isChain_pair]
  intro hchanged
  have hdiffers : first.graph.Differs second.graph ⟨"a.ts"⟩ := by
    rw [← hbundle₁] at hnone
    rw [← hbundle₂] at hsome
    obtain ⟨m, hm⟩ := ModuleGraph.exists_module?_iff.2 hsome
    rw [ModuleGraph.Differs, ModuleGraph.module?_eq_none_iff.2 hnone, hm]
    simp
  have hmem := (hchanged ⟨"a.ts"⟩).2 hdiffers
  rw [(reloads_of_production hproduction hbuild₂ 2 0).1] at hmem
  cases hmem

end Session

end Bindery
