import Bindery.Proofs.Bundle.Delivery
import Bindery.Proofs.Bundle.Failure

/-!
# What a failed build leaves alone

A build on what was built before writes nothing until all of its files are made, so where it fails
earlier the disk is as it was. A build from nothing may remove old output, and it does so first of
all. When a module then fails, the old output is gone, unless there was none.

* `Disk.clearDirectory_ok` : what is left after a directory was cleared.
* `Bundler.Kept` : the files of the output and the manifest are what they were.
* `Bundler.keeps_output` : when a build that fails before writing has kept them.
-/

namespace Bindery

namespace FileTree

/-- Keeping the nodes at some locations keeps what is found there. -/
theorem lookup_filter_keys (nodes : List (Location × Node)) (keep : Location → Bool)
    (loc : Location) :
    (nodes.filter fun n => keep n.1).lookup loc = if keep loc then nodes.lookup loc else none := by
  induction nodes with
  | nil => simp
  | cons n r ih =>
    rcases n with ⟨key, node⟩
    by_cases hloc : loc = key
    · subst hloc
      cases hkeep : keep loc with
      | true => simp [hkeep]
      | false => simpa [hkeep] using ih
    · have hskip : (loc == key) = false := by simpa using hloc
      cases hkeep : keep key with
      | true => simpa [hkeep, List.lookup_cons, hskip] using ih
      | false => simpa [hkeep, List.lookup_cons, hskip] using ih

/-- Without what lies below a location, the rest is found as before. -/
theorem find?_keepNot (t : FileTree) (top loc : Location) :
    find? ⟨t.nodes.filter fun n => !(top.isPrefixOf n.1 && n.1 != top)⟩ loc =
      if top <+: loc ∧ loc ≠ top then none else t.find? loc := by
  have hlookup :=
    lookup_filter_keys t.nodes (fun key => !(top.isPrefixOf key && key != top)) loc
  unfold find?
  rw [hlookup]
  by_cases hway : top <+: loc ∧ loc ≠ top
  · have hstarts : top.isPrefixOf loc = true := List.isPrefixOf_iff_prefix.2 hway.1
    simp [hway, hstarts]
  · rw [if_neg hway, if_pos]
    by_cases hstarts : top <+: loc
    · simp [not_not.1 fun hne => hway ⟨hstarts, hne⟩]
    · have hnot : top.isPrefixOf loc = false := by
        rw [← Bool.not_eq_true, List.isPrefixOf_iff_prefix]
        exact hstarts
      simp [hnot]

end FileTree

namespace Disk

open Path

variable {d d' : Disk} {path : String} {loc : Location}

theorem isDir_iff_locate : d.isDir path = true ↔
    ∃ loc, d.locate path = .ok loc ∧ (loc = [] ∨ d.tree.isDir loc = true) := by
  unfold isDir
  cases d.locate path with
  | error e => simp
  | ok loc => simp

/-- Clearing a directory removes what lies below it. A path that leads to no directory is left
alone. -/
theorem clearDirectory_ok (hbase : isAbsolute d.base = true) {u : Unit}
    (h : clearDirectory path d = (.ok u, d')) :
    (d.isDir path = false ∧ d'.tree = d.tree) ∨
      (d.isDir path = true ∧ ∀ loc, d'.tree.read? loc =
        if Location.ofPath d.base path <+: loc then none else d.tree.read? loc) := by
  unfold clearDirectory at h
  dsimp only at h
  split at h
  · cases h
  · split at h
    · next hlocate =>
      cases h
      exact .inl ⟨by simp [isDir, hlocate], rfl⟩
    · cases h
    · next top hlocate =>
      obtain rfl := locate_eq hbase hlocate
      split at h
      · next hdir =>
        cases h
        refine .inr ⟨by simpa [isDir, hlocate] using hdir, ?_⟩
        intro loc
        rw [FileTree.read?_eq, FileTree.find?_put, FileTree.find?_keepNot, FileTree.read?_eq]
        by_cases htop : loc = Location.ofPath d.base path
        · simp [htop]
        · by_cases hway : Location.ofPath d.base path <+: loc
          · simp [htop, hway]
          · simp [htop, hway]
      · next hdir =>
        refine .inl ⟨by simpa [isDir, hlocate] using hdir, ?_⟩
        split at h
        · cases h
        · cases h
          rfl

end Disk

namespace Bundler

open Path

variable {b : Bundler} {p : Project} {d d' : Disk} {e : BuildError}

/-- The places of the output: all that lies below the output directory, and the manifest. -/
def OwnPlace (b : Bundler) (base : String) (loc : Location) : Prop :=
  (Location.ofPath base b.profile.outputDirectory).Above loc ∨
    loc ≠ [] ∧ ∃ path, b.manifestTarget? = some path ∧ loc = Location.ofPath base path

/-- The files of the output are what they were. -/
def Kept (b : Bundler) (d d' : Disk) : Prop :=
  ∀ loc, b.OwnPlace d.base loc → d'.tree.read? loc = d.tree.read? loc

/-- There is no old output that a build could remove: it keeps old output, or the output directory is
not there, or it holds no files. -/
def NothingToClear (b : Bundler) (d : Disk) : Prop :=
  b.profile.output.clean = false ∨ d.isDir b.profile.outputDirectory = false ∨
    ∀ loc, (Location.ofPath d.base b.profile.outputDirectory).Above loc → d.tree.read? loc = none

/-- Removing old output keeps it only when there is none. -/
theorem kept_prepare_iff (hbase : isAbsolute d.base = true) (h : b.prepare d = (.ok (), d')) :
    b.Kept d d' ↔ b.NothingToClear d := by
  unfold prepare at h
  cases hclean : b.profile.output.clean with
  | false =>
    rw [hclean] at h
    cases h
    exact iff_of_true (fun _ _ => rfl) (.inl hclean)
  | true =>
    rw [hclean, if_pos rfl] at h
    have hclear : Disk.clearDirectory b.profile.outputDirectory d = (.ok (), d') := by
      unfold Output.clear Output.forPath at h
      split at h
      · next u t hdone =>
        cases h
        exact hdone
      · cases h
    rcases Disk.clearDirectory_ok hbase hclear with ⟨hdir, htree⟩ | ⟨hdir, hread⟩
    · exact iff_of_true (fun _ _ => by rw [htree]) (.inr (.inl hdir))
    · have hcleared : b.NothingToClear d ↔
          ∀ loc, (Location.ofPath d.base b.profile.outputDirectory).Above loc →
            d.tree.read? loc = none := by
        simp [NothingToClear, hclean, hdir]
      rw [hcleared]
      constructor
      · intro hkept loc habove
        rw [← hkept loc (.inl habove), hread, if_pos habove.1]
      · intro hnone loc hplace
        rw [hread]
        split
        · next hway =>
          by_cases htop : Location.ofPath d.base b.profile.outputDirectory = loc
          · -- the manifest cannot be where the directory is
            rcases hplace with habove | ⟨hne, -⟩
            · exact absurd htop habove.2
            · obtain ⟨top, hlocate, hisDir⟩ := Disk.isDir_iff_locate.1 hdir
              rw [Disk.locate_eq hbase hlocate, htop] at hisDir
              exact (FileTree.isDir_iff.1 (hisDir.resolve_left hne)).1.symm
          · exact (hnone loc ⟨hway, htop⟩).symm
        · rfl

/-- A build on what was built before that fails because of its modules leaves the disk as it was. A
build from nothing does not: it has kept the files of the output and the manifest exactly when there
was no old output to remove. -/
theorem keeps_output (b : Bundler) (p : Project) (d : Disk) (hbase : isAbsolute d.base = true) :
    (∀ last touched e d', b.rebuild p last touched d = (.error e, d') →
        (e.kind = .resolution ∨ e.kind = .transform) → d' = d) ∧
      ∀ e d', b.build p d = (.error e, d') → (e.kind = .resolution ∨ e.kind = .transform) →
        (b.Kept d d' ↔ b.NothingToClear d) := by
  have hlate : ∀ e : BuildError, e.IsLate → ¬(e.kind = .resolution ∨ e.kind = .transform) := by
    intro e hwrite
    rw [hwrite.kind]
    decide
  constructor
  · intro last touched e d' h hkind
    rcases rebuild_error h with ⟨-, hsame⟩ | hwrite
    · exact hsame
    · exact absurd hkind (hlate e hwrite)
  · intro e d' h hkind
    rcases build_error h with ⟨-, hprepare⟩ | hwrite
    · exact kept_prepare_iff hbase hprepare
    · exact absurd hkind (hlate e hwrite)

/-! ## A page that is refused -/

/-- A page of one script for development. A script that says "boom" is refused. -/
def refusing (clean : Bool) : Bundler :=
  { profile :=
      .ofLayer
        { root := some "/app", entries := some [("main", ["a.js"])], outputPath := some "out"
          clean := some clean
          rules := some [{ test := .ofLiteral "js$", chain := [{ engine := "strict" }] }] }
        .development {}
    registry :=
      [{ name := "strict"
         apply := fun i =>
           if i.code = "boom" then .failed (.failed "unexpected token 'boom'")
           else .done { code := i.code, kind := .script } }] }

/-- The script as it was edited. -/
def edited : Project := ⟨⟨[(["app", "a.js"], .file "boom".toUTF8)]⟩, "/app"⟩

/-- The disk with the page as it was built before the script was edited. -/
def servedDisk : Disk :=
  { tree := ⟨[(["app", "out", "main.bundle.js"], .file "old".toUTF8)]⟩, base := "/app" }

/-- A failed build that does not clear keeps the page. -/
theorem keeps_output_refused : ∃ e d', isAbsolute servedDisk.base = true ∧
    (refusing false).build edited servedDisk = (.error e, d') ∧
      (e.kind = .resolution ∨ e.kind = .transform) ∧
      (refusing false).Kept servedDisk d' := by
  have hkeeps := (keeps_output (refusing false) edited servedDisk rfl).2
  have hcheck : (match ((refusing false).build edited servedDisk).1 with
      | .ok _ => none
      | .error e => some e.kind) = some .transform := by
    decide +kernel
  rcases hbuild : (refusing false).build edited servedDisk with ⟨result, d'⟩
  rw [hbuild] at hcheck
  cases result with
  | ok snapshot => cases hcheck
  | error e =>
    have hkind : e.kind = .transform := Option.some.inj hcheck
    exact ⟨e, d', rfl, rfl, .inr hkind, (hkeeps e d' hbuild (.inr hkind)).2 (.inl rfl)⟩

/-- A failed build that clears first has removed the page, although the profile is in order. -/
theorem not_kept_refused : ∃ e d', (refusing true).profile.validate.isOk = true ∧
    (refusing true).build edited servedDisk = (.error e, d') ∧ e.kind = .transform ∧
      ¬(refusing true).Kept servedDisk d' := by
  have hcheck : (match (refusing true).build edited servedDisk with
      | (.ok _, _) => none
      | (.error e, d') => some (e.kind, d'.tree.read? ["app", "out", "main.bundle.js"])) =
        some (.transform, none) := by
    decide +kernel
  have hplace : (refusing true).OwnPlace servedDisk.base ["app", "out", "main.bundle.js"] := by
    have hdirectory : Location.ofPath servedDisk.base (refusing true).profile.outputDirectory =
        ["app", "out"] := by
      decide
    refine .inl ?_
    rw [hdirectory]
    exact Location.above_append_singleton.2 List.prefix_rfl
  rcases hbuild : (refusing true).build edited servedDisk with ⟨result, d'⟩
  rw [hbuild] at hcheck
  cases result with
  | ok snapshot => cases hcheck
  | error e =>
    obtain ⟨hkind, hgone⟩ := Prod.mk.inj (Option.some.inj hcheck)
    refine ⟨e, d', by decide, rfl, hkind, ?_⟩
    intro hkept
    have hread := hkept _ hplace
    rw [hgone] at hread
    exact absurd hread (by decide)

end Bundler

end Bindery
