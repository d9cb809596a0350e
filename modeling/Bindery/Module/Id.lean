import Bindery.Path

/-!
# Module identifiers

A module is named by the cleaned path of its file below the project root, with forward slashes; a
file outside of the root keeps its absolute path. What could not be found is named by the path
that was asked for behind a reserved word.
-/

namespace Bindery

/-- The name of a module. Rules and groups match against this text. -/
structure ModuleId where
  text : String
  deriving DecidableEq, Repr, Inhabited

namespace ModuleId

instance : LT ModuleId := ⟨fun a b => a.text < b.text⟩

instance (a b : ModuleId) : Decidable (a < b) := inferInstanceAs (Decidable (a.text < b.text))

/-- The order by text. -/
def le (a b : ModuleId) : Bool := !(decide (b.text < a.text))

theorem lt_irrefl (a : ModuleId) : ¬a < a := String.lt_irrefl a.text

theorem lt_trans {a b c : ModuleId} (hab : a < b) (hbc : b < c) : a < c := String.lt_trans hab hbc

theorem lt_of_not_lt {a b : ModuleId} (h : ¬a < b) (hne : b ≠ a) : b < a := by
  have hle : b.text ≤ a.text := String.not_lt.1 h
  have htext : b.text ≠ a.text := fun heq => hne (congrArg ModuleId.mk heq)
  show b.text < a.text
  exact Std.lt_of_le_of_ne hle htext

theorem ne_of_lt {a b : ModuleId} (h : a < b) : a ≠ b := by
  rintro rfl
  exact lt_irrefl _ h

theorem le_iff {a b : ModuleId} : le a b = true ↔ ¬b < a := by
  simp only [le, Bool.not_eq_true', decide_eq_false_iff_not]
  exact Iff.rfl

theorem le_trans (a b c : ModuleId) (hab : le a b = true) (hbc : le b c = true) :
    le a c = true := by
  rw [le_iff] at *
  exact String.not_lt.2 (String.le_trans (String.not_lt.1 hab) (String.not_lt.1 hbc))

theorem le_total (a b : ModuleId) : (le a b || le b a) = true := by
  rw [Bool.or_eq_true, le_iff, le_iff]
  rcases String.le_total a.text b.text with h | h
  · exact .inl (String.not_lt.2 h)
  · exact .inr (String.not_lt.2 h)

/-- Ids in order, each once. -/
def sortUnique (ids : List ModuleId) : List ModuleId := (ids.mergeSort le).eraseReps

/-- The word before the id of something that was not found. -/
def missingMark : String := "missing:"

/-- Forward slashes in place of backslashes. -/
def forward (text : String) : String :=
  String.ofList (text.toList.map fun c => if c = '\\' then '/' else c)

def isMissing (id : ModuleId) : Bool := missingMark.toList.isPrefixOf id.text.toList

/-- The id of project-relative text. Blank text and text that means the root itself have none;
text with the reserved word is taken as it is. -/
def ofText? (text : String) : Option ModuleId :=
  let raw := forward text
  if Text.isBlankText raw then none
  else if missingMark.toList.isPrefixOf raw.toList then some ⟨raw⟩
  else
    let cleaned := Path.clean raw
    if cleaned = "" || cleaned = "." then none else some ⟨cleaned⟩

/-- The id of a cleaned path, relative to the root where it lies below it. -/
def ofCleaned? (root path : String) : Option ModuleId :=
  match Path.stripBase? (Path.clean root) path with
  | some relative => ofText? relative
  | none => ofText? path

/-- The id of a file. -/
def ofPath? (root path : String) : Option ModuleId :=
  ofCleaned? root (Path.clean (Path.join root path))

/-- The id for something that could not be found, seen from the directory of its importer. -/
def missing (specifier : String) (importer : Option ModuleId) : ModuleId :=
  let base := ((importer.bind fun id => Path.parent? id.text)).getD ""
  ⟨missingMark ++ forward (Path.clean (Path.join base specifier))⟩

theorem isMissing_missing (specifier : String) (importer : Option ModuleId) :
    (missing specifier importer).isMissing = true := by
  simp [isMissing, missing]

/-- The path of the module's file. -/
def toPath (id : ModuleId) (root : String) : String := Path.join root id.text

/-- The extension of the file, without its point. -/
def extension? (id : ModuleId) : Option String := Path.extension? id.text

/-- The file name without its last extension. -/
def fileStem (id : ModuleId) : String := (Path.fileStem? id.text).getD id.text

/-- Some directory on the way to the file holds installed packages. -/
def isPackage (id : ModuleId) : Bool :=
  (Path.components id.text).contains (.name "node_modules")

end ModuleId

end Bindery
