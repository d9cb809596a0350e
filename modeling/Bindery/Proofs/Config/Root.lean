import Bindery.Config.Document
import Bindery.Proofs.Path

/-!
# The root of a project

The directory of a project is known as soon as its layers are read, the mode only when they are
resolved. The base layer has its root seen from the directory at the first of these times, and the
layer of the mode, which hides it, is not looked at then. So a root that is set for one mode stays as
it is written.

* `Configuration.Loads` : the layers as they are written, and as they are loaded for a directory.
* `Configuration.root_resolve_anchor` : the root that a profile gets.
* `Configuration.root_loaded_iff` : it is the one that is meant unless the mode sets a relative one.
-/

namespace Bindery

namespace Configuration

/-- The root that counts in a mode: the layer of the mode hides the one of the base. -/
def root? (c : Configuration) (mode : Mode) : Option String :=
  (c.overrides mode).root.or c.base.root

/-- A root as it is meant: a relative one is seen from the directory of the project, which stands in
where none is set. -/
def rootFrom (directory : String) : Option String → String
  | some root => if Path.isAbsolute root then root else Path.join directory root
  | none => directory

/-- The layers that are written for a project and those that are loaded for its directory, either
together with the environment or from the one file. -/
inductive Loads (p : Project) (directory : String) (written loaded : Configuration) : Prop where
  | project (vars : List (String × String)) (path : Option String)
      (hread : read p vars directory path = .ok written)
      (hload : load p vars directory path = .ok loaded)
  | file (path : String) (hparent : Path.parent? path ≠ none)
      (hdirectory : Path.parentText path = directory)
      (hread : readOne p path = .ok written) (hload : ofFile p path = .ok loaded)

variable {p : Project} {directory : String} {written loaded : Configuration}

/-- What is loaded is what is written, seen from the directory. -/
theorem Loads.eq_anchor (h : Loads p directory written loaded) :
    loaded = written.anchor directory := by
  cases h with
  | project vars path hread hload =>
    rw [load, hread] at hload
    exact (Except.ok.inj hload).symm
  | file path hparent hdirectory hread hload =>
    obtain ⟨parent, hparent⟩ := Option.ne_none_iff_exists'.1 hparent
    rw [ofFile, hread] at hload
    simp only [hparent, hdirectory] at hload
    exact (Except.ok.inj hload).symm

/-- The base layer has its root seen from the directory. -/
theorem root_base_anchor (c : Configuration) (directory : String) :
    (c.anchor directory).base.root = some (rootFrom directory c.base.root) := by
  cases h : c.base.root with
  | none => simp [anchor, rootFrom, h]
  | some root =>
    by_cases hroot : Path.isAbsolute root = true
    · simp [anchor, rootFrom, h, hroot, Path.join_of_isAbsolute hroot]
    · simp [anchor, rootFrom, h, hroot]

/-- The root of a profile is the one that its mode sets, as it is written, and else the one of the
base, as it is meant. -/
theorem root_resolve_anchor (c : Configuration) (directory : String) (mode : Mode)
    (flags : EnvFlags) :
    ((c.anchor directory).resolve mode flags).root =
      (c.overrides mode).root.getD (rootFrom directory c.base.root) := by
  have hoverrides : (c.anchor directory).overrides mode = c.overrides mode := by cases mode <;> rfl
  show (pick (pick (Defaults.layer mode).root (c.anchor directory).base.root)
    ((c.anchor directory).overrides mode).root).getD "." = _
  rw [root_base_anchor, hoverrides]
  cases (c.overrides mode).root <;> rfl

/-- Whatever is written and wherever it is loaded for, the root of a profile is the one that its mode
sets, as it is written, and else the one of the base, as it is meant. So it is the one that is meant
exactly when the mode sets none, or an absolute one, or is loaded for no directory. -/
theorem root_loaded_iff (h : Loads p directory written loaded) (mode : Mode) (flags : EnvFlags) :
    (loaded.resolve mode flags).root =
        (written.overrides mode).root.getD (rootFrom directory written.base.root) ∧
      ((loaded.resolve mode flags).root = rootFrom directory (written.root? mode) ↔
        ∀ root, (written.overrides mode).root = some root →
          Path.isAbsolute root = true ∨ directory = "") := by
  have hroot := root_resolve_anchor written directory mode flags
  rw [h.eq_anchor]
  refine ⟨hroot, ?_⟩
  rw [hroot, root?]
  cases hmode : (written.overrides mode).root with
  | none => simp
  | some root =>
    simp only [Option.getD_some, Option.some_or, Option.some.injEq, forall_eq', rootFrom]
    by_cases habsolute : Path.isAbsolute root = true
    · simp [habsolute]
    · rw [if_neg habsolute, eq_comm, Path.join_eq_self_iff]

/-! ### Roots below the directory -/

/-- A project in `/app` whose file says this. -/
def configured (text : String) : Project :=
  ⟨⟨[(["app", "sheaf.toml"], .file text.toUTF8)]⟩, "/app"⟩

/-- What is loaded is also written. -/
theorem exists_loads (text : String) (check : Configuration → Bool)
    (h : (read (configured text) [] "/app" none).toOption.any check = true) :
    ∃ written loaded, Loads (configured text) "/app" written loaded ∧ check written = true := by
  cases hread : read (configured text) [] "/app" none with
  | error e =>
    rw [hread] at h
    cases h
  | ok written =>
    rw [hread] at h
    refine ⟨written, written.anchor "/app", .project [] none hread ?_, h⟩
    rw [load, hread]
    rfl

/-- The base says where the root is, and production does not. -/
theorem root_loaded_iff_client : ∃ written loaded,
    Loads (configured "[base]\nroot = \"client\"\n") "/app" written loaded ∧
      (loaded.resolve .production {}).root = "/app/client" ∧
      (loaded.resolve .production {}).root = rootFrom "/app" (written.root? .production) := by
  obtain ⟨written, loaded, hloads, hcheck⟩ := exists_loads "[base]\nroot = \"client\"\n"
    (fun c => c.production.root == none && c.base.root == some "client") (by decide +kernel)
  rw [Bool.and_eq_true, beq_iff_eq, beq_iff_eq] at hcheck
  have hmode : (written.overrides .production).root = none := hcheck.1
  obtain ⟨hroot, hmeant⟩ := root_loaded_iff hloads .production {}
  refine ⟨written, loaded, hloads, ?_, hmeant.2 ?_⟩
  · rw [hroot, hmode, hcheck.2]
    decide
  · rw [hmode]
    nofun

/-- Development says where the root is, below the directory of the project. The profile has it below
whatever directory it is seen from. -/
theorem not_anchored_client : ∃ written loaded,
    Loads (configured "[development]\nroot = \"client\"\n") "/app" written loaded ∧
      (loaded.resolve .development {}).root = "client" ∧
      rootFrom "/app" (written.root? .development) = "/app/client" ∧
      (loaded.resolve .development {}).root ≠ rootFrom "/app" (written.root? .development) := by
  obtain ⟨written, loaded, hloads, hcheck⟩ := exists_loads "[development]\nroot = \"client\"\n"
    (fun c => c.development.root == some "client") (by decide +kernel)
  have hmode : (written.overrides .development).root = some "client" := beq_iff_eq.1 hcheck
  have hroot : (loaded.resolve .development {}).root = "client" := by
    rw [hloads.eq_anchor, root_resolve_anchor, hmode, Option.getD_some]
  have hmeant : rootFrom "/app" (written.root? .development) = "/app/client" := by
    rw [root?, hmode, Option.some_or]
    decide +kernel
  refine ⟨written, loaded, hloads, hroot, hmeant, ?_⟩
  rw [hroot, hmeant]
  decide

end Configuration

end Bindery
