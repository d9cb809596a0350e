import Mathlib.Data.List.DropRight
import Bindery.Proofs.Bundle.Delivery
import Bindery.Proofs.Session.Publication

/-!
# What a session serves

The files of a build are written while its cycle runs, before the session knows what will become of
the cycle. So what is there is the last good build as long as no cycle since then had anything to
write: cycles that fail because of the modules they read leave the files alone, and so does the page
that is shown then. A cycle that has gone stale is thrown away, but what it wrote stays.

* `Session.sinceGood`, `Session.writes` : the moments since the last good update, and those at which
  files may be written.
* `Session.Apart` : the files of a build do not get into the way of others that a session writes.
* `Session.serves_lastGood` : what is there after a run.
* `Session.not_serves_lastGood_hasty` : the files of a cycle that was thrown away.
-/

namespace Bindery

namespace Session

open Path

variable {s : Session} {st next : SessionState} {d d' nextDisk : Disk} {signal : Signal}
  {update : Option SessionUpdate} {seen : Project} {snapshot last : Snapshot} {h : SessionHistory}

/-! ## Where a session writes -/

/-- The paths that a session writes besides the files of its builds: the manifest, and the page of a
failed build. -/
def lonePaths (s : Session) : List String := s.bundler.manifestTarget?.toList ++ s.pagePath.toList

/-- A location that writing to one of these paths works on. -/
def Lone (s : Session) (base : String) (loc : Location) : Prop :=
  ∃ path ∈ s.lonePaths, Output.AtPath base path loc

/-- The files of a build do not get into each other's way, nor into that of the manifest or of the
page of a failed build. -/
structure Apart (s : Session) (base : String) (snapshot : Snapshot) : Prop where
  /-- No file has its place where one waits beside its own. -/
  beside : ∀ loc ∈ s.bundler.places base snapshot, ∀ other ∈ s.bundler.places base snapshot,
    Output.beside loc ≠ other
  /-- No file has its place where the manifest or the page goes. -/
  lone : ∀ loc ∈ s.bundler.places base snapshot, ¬s.Lone base loc

instance (s : Session) (base : String) (loc : Location) : Decidable (s.Lone base loc) :=
  inferInstanceAs (Decidable (∃ path ∈ s.lonePaths,
    loc = Location.ofPath base path ∨ loc = Location.ofPath base (Output.tempPath path)))

instance (s : Session) (base : String) (snapshot : Snapshot) : Decidable (s.Apart base snapshot) :=
  decidable_of_iff ((∀ loc ∈ s.bundler.places base snapshot,
      ∀ other ∈ s.bundler.places base snapshot, Output.beside loc ≠ other) ∧
      ∀ loc ∈ s.bundler.places base snapshot, ¬s.Lone base loc)
    ⟨fun h => ⟨h.1, h.2⟩, fun h => ⟨h.beside, h.lone⟩⟩

theorem grows_showPage (habsolute : isAbsolute d.base = true) (page : ErrorPage) :
    d.Grows (s.Lone d.base) (fun _ => True) (s.showPage page d).2 := by
  unfold showPage
  cases hpath : s.pagePath with
  | none => exact .refl d
  | some path =>
    refine (Output.confined_writeDurably_atPath habsolute path _ d rfl).mono ?_ fun _ => id
    exact fun loc hloc => ⟨path, by simp [lonePaths, hpath], hloc⟩

theorem grows_hidePage (habsolute : isAbsolute d.base = true) :
    d.Grows (s.Lone d.base) (fun _ => True) (s.hidePage d).2 := by
  unfold hidePage
  cases hpath : s.pagePath with
  | none => exact .refl d
  | some path =>
    refine (Disk.confined_removeFile habsolute path d rfl).mono ?_ fun _ => id
    exact fun loc hloc => ⟨path, by simp [lonePaths, hpath], .inl hloc⟩

/-! ## Builds -/

theorem base_build (habsolute : isAbsolute d.base = true) (s : Session) (st : SessionState)
    (seen : Project) : (s.build st seen d).2.base = d.base := by
  unfold build
  cases st.lastGood with
  | none => exact (Bundler.confined_build habsolute _ _ d rfl).base
  | some last => exact (Bundler.confined_rebuild habsolute _ _ _ _ d rfl).base

/-- The files of a good build are there when it is done. -/
theorem serves_of_build (habsolute : isAbsolute d.base = true)
    (hbuild : s.build st seen d = (.ok snapshot, d')) (hapart : s.Apart d.base snapshot) :
    s.bundler.Serves d' snapshot := by
  have hlone : ∀ path, s.bundler.manifestTarget? = some path →
      ∀ loc ∈ s.bundler.places d.base snapshot, ¬Output.AtPath d.base path loc := by
    intro path hpath loc hloc hat
    exact hapart.lone loc hloc ⟨path, by simp [lonePaths, hpath], hat⟩
  unfold build at hbuild
  cases hlast : st.lastGood with
  | none =>
    rw [hlast] at hbuild
    obtain ⟨d₁, hprepare, hrebuild⟩ := Bundler.build_ok.1 hbuild
    obtain ⟨made, -, hwrite⟩ := Bundler.rebuild_ok.1 hrebuild
    have hbase := (Bundler.confined_prepare d.base s.bundler d rfl).base
    rw [hprepare] at hbase
    refine Bundler.serves_of_write (hbase ▸ habsolute) hwrite ?_ ?_
    · rw [hbase]
      exact hapart.beside
    · rw [hbase]
      exact hlone
  | some last =>
    rw [hlast] at hbuild
    obtain ⟨made, -, hwrite⟩ := Bundler.rebuild_ok.1 hbuild
    exact Bundler.serves_of_write habsolute hwrite hapart.beside hlone

/-- What the build of a cycle makes before anything is written. -/
def compiled (s : Session) (st : SessionState) (seen : Project) : Except BuildError Bundle :=
  match st.lastGood with
  | none => s.bundler.compile seen none []
  | some last => s.bundler.compile seen (some last.toBundle) st.carried

/-- A build after a good one that does not get as far as writing leaves the disk alone. -/
theorem build_of_not_compiled (hlast : st.lastGood = some last)
    (hcompiled : (s.compiled st seen).isOk = false) (d : Disk) :
    ∃ e, s.build st seen d = (.error e, d) := by
  have hcompile : s.compiled st seen =
      s.bundler.compile seen ((some last).map (·.toBundle)) st.carried := by
    unfold compiled
    rw [hlast]
    rfl
  have hbuild : s.build st seen = s.bundler.rebuild seen (some last) st.carried := by
    unfold build
    rw [hlast]
  cases hresult : s.compiled st seen with
  | ok made =>
    rw [hresult] at hcompiled
    cases hcompiled
  | error e =>
    rw [hcompile] at hresult
    rw [hbuild]
    exact ⟨e, Bundler.rebuild_of_error hresult d⟩

/-! ## Moments -/

/-- Whether a cycle comes to its end at this moment with something to write. -/
def writes (s : Session) (m : Moment) : Bool :=
  match m.state.status, m.signal with
  | .building _ _, .built seen _ => (s.compiled m.state seen).isOk
  | _, _ => false

/-- The moments of a run since the last good update. -/
def sinceGood (s : Session) (h : SessionHistory) : List Moment :=
  h.moments.rtakeWhile fun m => (s.success? m).isNone

theorem Moves.base_eq (hmove : Moves s st d signal next update nextDisk)
    (habsolute : isAbsolute d.base = true) : nextDisk.base = d.base := by
  cases hmove with
  | discards cycle seen => exact s.base_build habsolute st seen
  | succeeds cycle seen durationMs snapshot written hbuilding hbuild =>
    have hbase := s.base_build habsolute st seen
    rw [hbuild] at hbase
    exact (grows_hidePage (hbase ▸ habsolute)).base.trans hbase
  | fails cycle seen durationMs e left hbuilding hbuild =>
    have hbase := s.base_build habsolute st seen
    rw [hbuild] at hbase
    exact (grows_showPage (hbase ▸ habsolute) _).base.trans hbase
  | _ => rfl

/-- A move to a good build serves it, and one that writes no files goes on serving the one before. -/
theorem Moves.serves (hmove : Moves s st d signal next update nextDisk)
    (habsolute : isAbsolute d.base = true) (hlast : next.lastGood = some snapshot)
    (hapart : s.Apart d.base snapshot)
    (hbefore : s.success? ⟨st, d, signal, next, update, nextDisk⟩ = none →
      s.writes ⟨st, d, signal, next, update, nextDisk⟩ = false ∧
        (st.lastGood = some snapshot → s.bundler.Serves d snapshot)) :
    s.bundler.Serves nextDisk snapshot := by
  cases hmove with
  | ignores => exact (hbefore rfl).2 hlast
  | closes => exact (hbefore rfl).2 hlast
  | stops => exact (hbefore rfl).2 hlast
  | begins => exact (hbefore rfl).2 hlast
  | notes => exact (hbefore rfl).2 hlast
  | stales => exact (hbefore rfl).2 hlast
  | wakes => exact (hbefore rfl).2 hlast
  | discards cycle seen durationMs hbuilding =>
    obtain ⟨hquiet, hserves⟩ := hbefore rfl
    have hgood : st.lastGood = some snapshot := hlast
    have hcompiled : (s.compiled st seen).isOk = false := by simpa [writes, hbuilding] using hquiet
    obtain ⟨e, hbuild⟩ := build_of_not_compiled hgood hcompiled d
    rw [hbuild]
    exact hserves hgood
  | succeeds cycle seen durationMs made written hbuilding hbuild =>
    obtain rfl : made = snapshot := Option.some.inj hlast
    have hbase := s.base_build habsolute st seen
    rw [hbuild] at hbase
    refine (serves_of_build habsolute hbuild hapart).of_grows
      (grows_hidePage (hbase ▸ habsolute)) ?_
    rw [hbase]
    exact hapart.lone
  | fails cycle seen durationMs e left hbuilding hbuild =>
    have hnone : ∀ next update nextDisk,
        s.success? ⟨st, d, .built seen durationMs, next, update, nextDisk⟩ = none := by
      intro next update nextDisk
      cases update with
      | none => rfl
      | some u => simp [success?, made?, hbuild, Except.toOption]
    obtain ⟨hquiet, hserves⟩ := hbefore (hnone _ _ _)
    have hgood : st.lastGood = some snapshot := hlast
    have hcompiled : (s.compiled st seen).isOk = false := by simpa [writes, hbuilding] using hquiet
    obtain ⟨e', hsame⟩ := build_of_not_compiled hgood hcompiled d
    rw [hbuild] at hsame
    obtain rfl : left = d := congrArg Prod.snd hsame
    exact (hserves hgood).of_grows (grows_showPage habsolute _) hapart.lone

/-! ## Runs -/

/-- What is there after a run is the last good build, as long as no cycle since then had anything to
write. -/
theorem serves_lastGood (s : Session) (d : Disk) (habsolute : isAbsolute d.base = true)
    (signals : List Signal) (snapshot : Snapshot)
    (hlast : (s.history d signals).state.lastGood = some snapshot)
    (hquiet : ∀ m ∈ s.sinceGood (s.history d signals), s.writes m = false)
    (hapart : s.Apart d.base snapshot) :
    s.bundler.Serves (s.history d signals).disk snapshot := by
  have hrun := history_induction (s := s) (d := d) (P := fun h => h.disk.base = d.base ∧
    (h.state.lastGood = some snapshot → (∀ m ∈ s.sinceGood h, s.writes m = false) →
      s.bundler.Serves h.disk snapshot)) ?_ ?_ signals
  · exact hrun.2 hlast hquiet
  · refine ⟨rfl, ?_⟩
    intro hnone
    cases hnone
  · rintro h signal next update nextDisk ⟨hbase, ih⟩ - hmove
    have habsolute' : isAbsolute h.disk.base = true := hbase ▸ habsolute
    refine ⟨(hmove.base_eq habsolute').trans hbase, ?_⟩
    intro hlast hquiet
    refine hmove.serves habsolute' hlast (hbase ▸ hapart) ?_
    intro hnone
    -- without a good update the moment is one more since the last one
    have hsince := List.rtakeWhile_concat_pos (p := fun m => (s.success? m).isNone)
      (l := h.moments) ⟨h.state, h.disk, signal, next, update, nextDisk⟩ (by simp [hnone])
    have hboth : ∀ m ∈ s.sinceGood h ++ [⟨h.state, h.disk, signal, next, update, nextDisk⟩],
        s.writes m = false := by
      intro m hm
      refine hquiet m ?_
      unfold sinceGood
      rwa [hsince]
    refine ⟨hboth _ (List.mem_append_right _ (List.mem_singleton_self _)), ?_⟩
    exact fun hbefore => ih hbefore fun m hm => hboth m (List.mem_append_left _ hm)

/-! ## A strict page -/

/-- A session over a page with these modules. Its scripts are read strictly: one that says "boom" is
refused. -/
def strict (modules : List String) : Session :=
  .ofBundler
    { profile :=
        .ofLayer
          { root := some "/app", entries := some [("main", modules)]
            extensions := some [".ts", ".js"], outputPath := some "out"
            rules := some [{ test := .ofLiteral "s$", chain := [{ engine := "strict" }] }] }
          .development {}
      registry :=
        [{ name := "strict"
           apply := fun i =>
             if i.code = "boom" then .failed (.failed "unexpected token 'boom'")
             else .done { code := i.code, kind := .script } }] }
    true

/-- A typed script that is refused takes the place of the untyped one. -/
def refused : List Signal :=
  [.begun, .built ⟨⟨[(["app", "b.js"], .file "0".toUTF8)]⟩, "/app"⟩ 0, .changed ["/app/b.ts"],
    .built ⟨⟨[(["app", "b.js"], .file "0".toUTF8), (["app", "b.ts"], .file "boom".toUTF8)]⟩, "/app"⟩
      0]

/-- What is served behind the page of a failed build. -/
def behindPage? (st : SessionState) : Option Snapshot :=
  match st.status with
  | .ready (some _) => st.lastGood
  | _ => none

/-- Where what is served behind a page passes a check, both are there. -/
theorem exists_of_behindPage?_any {st : SessionState} {check : Snapshot → Bool}
    (h : (behindPage? st).any check = true) : ∃ page snapshot, st.status = .ready (some page) ∧
      st.lastGood = some snapshot ∧ check snapshot = true := by
  unfold behindPage? at h
  split at h
  · next page hstatus =>
    cases hlast : st.lastGood with
    | none =>
      rw [hlast] at h
      cases h
    | some snapshot =>
      rw [hlast] at h
      exact ⟨page, snapshot, hstatus, rfl, h⟩
  · cases h

/-- The page of the failed build is shown, and the script of the good one is still there. -/
theorem serves_lastGood_refused : ∃ page snapshot,
    ((strict ["b"]).history blank refused).state.status = .ready (some page) ∧
      ((strict ["b"]).history blank refused).state.lastGood = some snapshot ∧
      snapshot.artifacts.length = 1 ∧
      (strict ["b"]).bundler.Serves ((strict ["b"]).history blank refused).disk snapshot := by
  have hserves := serves_lastGood (strict ["b"]) blank rfl refused
  have hcheck : (behindPage? ((strict ["b"]).history blank refused).state).any (fun snapshot =>
      snapshot.artifacts.length == 1 && decide ((strict ["b"]).Apart blank.base snapshot)
        && ((strict ["b"]).sinceGood ((strict ["b"]).history blank refused)).all
          fun m => !(strict ["b"]).writes m) = true := by
    decide +kernel
  generalize (strict ["b"]).history blank refused = h at hserves hcheck ⊢
  obtain ⟨page, snapshot, hready, hlast, hgood⟩ := exists_of_behindPage?_any hcheck
  simp only [Bool.and_eq_true, beq_iff_eq, decide_eq_true_eq, List.all_eq_true,
    Bool.not_eq_true'] at hgood
  obtain ⟨⟨hlength, hapart⟩, hquiet⟩ := hgood
  exact ⟨page, snapshot, hready, hlast, hlength, hserves snapshot hlast hquiet hapart⟩

/-- A picture and a script. -/
def pictured (text : String) : Project :=
  ⟨⟨[(["app", "a.svg"], .file text.toUTF8), (["app", "b.js"], .file text.toUTF8)]⟩, "/app"⟩

/-- Both are overwritten, and the change to the picture is told first. The cycle that takes it over
does not read the script again and goes stale; the next one does, and fails. -/
def hasty : List Signal :=
  [.begun, .built (pictured "0") 0, .changed ["/app/a.svg"], .changed ["/app/b.js"],
    .built (pictured "boom") 0, .built (pictured "boom") 0]

/-- The picture that is there is the one of the cycle that was thrown away. -/
theorem not_serves_lastGood_hasty : ∃ page snapshot,
    ((strict ["a.svg", "b"]).history blank hasty).state.status = .ready (some page) ∧
      ((strict ["a.svg", "b"]).history blank hasty).state.lastGood = some snapshot ∧
      ¬(strict ["a.svg", "b"]).bundler.Serves
        ((strict ["a.svg", "b"]).history blank hasty).disk snapshot := by
  have hcheck : (behindPage? ((strict ["a.svg", "b"]).history blank hasty).state).any (fun snapshot =>
      snapshot.artifacts.any fun a =>
        a.file == "fonts/a.svg" && decide (a.bytes = "0".toUTF8)) = true ∧
      ((strict ["a.svg", "b"]).history blank hasty).disk.base = "/" ∧
      ((strict ["a.svg", "b"]).history blank hasty).disk.tree.read? ["app", "out", "fonts", "a.svg"] =
        some "boom".toUTF8 := by
    decide +kernel
  have htarget : (Output.target?
      (Output.absolute "/" (strict ["a.svg", "b"]).bundler.profile.outputDirectory)
      "fonts/a.svg").toOption = some "/app/out/fonts/a.svg" := by decide +kernel
  have hplace : Location.ofPath "/" "/app/out/fonts/a.svg" = ["app", "out", "fonts", "a.svg"] := by
    decide +kernel
  have hother : some "boom".toUTF8 ≠ some "0".toUTF8 := by decide +kernel
  generalize (strict ["a.svg", "b"]).history blank hasty = h at hcheck ⊢
  obtain ⟨hmade, hbase, hthere⟩ := hcheck
  obtain ⟨page, snapshot, hready, hlast, hcopied⟩ := exists_of_behindPage?_any hmade
  simp only [List.any_eq_true, Bool.and_eq_true, beq_iff_eq, decide_eq_true_eq] at hcopied
  obtain ⟨a, ha, hfile, hbytes⟩ := hcopied
  refine ⟨page, snapshot, hready, hlast, ?_⟩
  intro hserves
  obtain ⟨path, hpath, hread⟩ := hserves a ha
  rw [hbase, hfile] at hpath
  rw [hpath] at htarget
  obtain rfl : path = "/app/out/fonts/a.svg" := Option.some.inj htarget
  rw [hbase, hplace, hthere, hbytes] at hread
  exact hother hread

end Session

end Bindery
