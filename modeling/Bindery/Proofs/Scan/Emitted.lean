import Bindery.Bundle.Transform
import Bindery.Proofs.Scan.Imports
import Bindery.Proofs.Text.Utf8

/-!
# What is searched and what is emitted

A source is searched for imports and for writes to the global object, and its text is what the
transformer starts from. Well-formed bytes are the same text for both. Bytes that are not are
emitted with their malformed stretches replaced, but are not searched at all: what their text imports
is in no graph.

* `Module.Faithful` : what was found in a module is what is in the text that is emitted for it.
* `Module.faithful_ofSource_iff` : when a module is.
* `Module.not_faithful_malformed` : one malformed byte, and an import goes unseen.
-/

namespace Bindery

namespace Scan

/-- The imports in a text of some kind. -/
def importsOf : SourceKind → String → List Import
  | .script, text => scriptImports text
  | .style, text => styleImports text
  | .resource, _ => []

end Scan

namespace Transformer

/-- The transformer starts from the text: unless it copies the module, it emits the text as it is or
hands it to the engines of a rule. -/
def StartsFrom (t : Transformer) (m : Module) (text : String) : Prop :=
  match Treatment.classify m.id.text t.rules t.assets with
  | .asset _ _ => True
  | .passThrough => t.transformModule m = .ok (.code (initialKind m.kind) text)
  | .transform i chain =>
    (Treatment.transform i chain).engineFault? m.id t.registry = none →
      t.transformModule m = t.runChain m.id i chain (initialKind m.kind) text

theorem startsFrom_text (t : Transformer) {m : Module} (hstub : m.isStub = false)
    (hkind : m.kind ≠ .resource) : t.StartsFrom m m.text := by
  unfold StartsFrom
  split
  · trivial
  · next htreatment =>
    simp [transformModule, hstub, htreatment, Treatment.engineFault?, hkind]
  · next i chain htreatment =>
    intro hfault
    simp [transformModule, hstub, htreatment, hfault]

end Transformer

namespace Module

/-- What was found in a module is what is in the text that is emitted for it. -/
structure Faithful (m : Module) : Prop where
  decoded : m.text =
    String.ofList ((Text.Utf8.decodeEach m.source.toList).map (·.getD '\uFFFD'))
  imports : m.imports = Scan.importsOf m.kind m.text
  global : m.kind = .script → m.hasGlobalState = Scan.writesGlobalState m.text
  emitted : m.kind ≠ .resource → ∀ t : Transformer, t.StartsFrom m m.text

variable {id : ModuleId} {path : String} {source : ByteArray}

@[simp] theorem kind_ofSource : (ofSource id path source).kind =
    SourceKind.ofExtension id.extension? := rfl

@[simp] theorem text_ofSource : (ofSource id path source).text = Text.Utf8.decodeLossy source := rfl

/-- Well-formed bytes are searched. -/
theorem found_of_decode? (id : ModuleId) (path : String) {text : String}
    (h : Text.Utf8.decode? source = some text) :
    (ofSource id path source).imports =
        Scan.importsOf (SourceKind.ofExtension id.extension?) text ∧
      (SourceKind.ofExtension id.extension? = .script →
        (ofSource id path source).hasGlobalState = Scan.writesGlobalState text) := by
  simp only [ofSource, h]
  cases SourceKind.ofExtension id.extension? <;> simp [Scan.importsOf]

/-- Malformed bytes are not. -/
theorem found_of_malformed (id : ModuleId) (path : String)
    (h : Text.Utf8.decode? source = none) :
    (ofSource id path source).imports = [] ∧ (ofSource id path source).hasGlobalState = false := by
  simp only [ofSource, h]
  cases SourceKind.ofExtension id.extension? <;> simp

theorem decode?_eq_none_iff : Text.Utf8.decode? source = none ↔ ¬source.IsValidUTF8 := by
  simp [Text.Utf8.decode?, String.fromUTF8?]

/-- What is searched is what is emitted exactly if the bytes are well formed, or there is nothing to
be found in their text. -/
theorem faithful_ofSource_iff (id : ModuleId) (path : String) (source : ByteArray) :
    (ofSource id path source).Faithful ↔ source.IsValidUTF8 ∨
      Scan.importsOf (SourceKind.ofExtension id.extension?) (Text.Utf8.decodeLossy source) = [] ∧
        (SourceKind.ofExtension id.extension? = .script →
          Scan.writesGlobalState (Text.Utf8.decodeLossy source) = false) := by
  have hemitted : (ofSource id path source).kind ≠ .resource →
      ∀ t : Transformer, t.StartsFrom (ofSource id path source) (ofSource id path source).text :=
    fun hkind t => t.startsFrom_text rfl hkind
  cases htext : Text.Utf8.decode? source with
  | some text =>
    have hvalid : source.IsValidUTF8 := by
      refine Decidable.of_not_not fun hmalformed => ?_
      rw [decode?_eq_none_iff.2 hmalformed] at htext
      cases htext
    obtain ⟨himports, hglobal⟩ := found_of_decode? id path htext
    refine iff_of_true ⟨Text.Utf8.decodeLossy_eq source, ?_, ?_, hemitted⟩ (.inl hvalid)
    · rw [himports, text_ofSource, Text.Utf8.decodeLossy_of_decode? htext, kind_ofSource]
    · intro hkind
      rw [hglobal hkind, text_ofSource, Text.Utf8.decodeLossy_of_decode? htext]
  | none =>
    obtain ⟨himports, hglobal⟩ := found_of_malformed id path htext
    rw [or_iff_right (decode?_eq_none_iff.1 htext)]
    constructor
    · intro h
      refine ⟨h.imports.symm.trans himports, ?_⟩
      intro hkind
      exact (h.global hkind).symm.trans hglobal
    · rintro ⟨hnone, hwrites⟩
      refine ⟨Text.Utf8.decodeLossy_eq source, himports.trans hnone.symm, ?_, hemitted⟩
      intro hkind
      exact hglobal.trans (hwrites hkind).symm

/-- An import, and behind it a comment with a byte that no encoding has. -/
def malformedScript : ByteArray := "import './b';\n//".toUTF8 ++ ⟨#[0xFF, 0x0A]⟩

/-- The import is in the text, but not in the module. -/
theorem not_faithful_malformed :
    (ofSource ⟨"a.js"⟩ "/app/a.js" malformedScript).imports = [] ∧
      (∃ i ∈ Scan.importsOf .script (Text.Utf8.decodeLossy malformedScript),
        i.specifier = "./b" ∧ i.kind = .static) ∧
      ¬(ofSource ⟨"a.js"⟩ "/app/a.js" malformedScript).Faithful := by
  have himports : (ofSource ⟨"a.js"⟩ "/app/a.js" malformedScript).imports = [] :=
    (found_of_malformed ⟨"a.js"⟩ "/app/a.js" (by decide)).1
  have htext : (Text.Utf8.decodeLossy malformedScript).toList =
      "import './b';\n//\uFFFD\n".toList := by
    rw [Text.Utf8.decodeLossy_eq, Text.Utf8.toList_eq_data, String.toList_ofList]
    decide
  -- whatever the other forms of import find, what this one finds stays in the list
  have hstatement : Scan.collect Scan.importStatement .static
      "import './b';\n//\uFFFD\n".toList = [(8, ⟨"./b", .static, none⟩)] := by decide +kernel
  have hfound : ∃ i ∈ Scan.importsOf .script (Text.Utf8.decodeLossy malformedScript),
      i.specifier = "./b" ∧ i.kind = .static := by
    refine Scan.exists_mem_inTextOrder (f := (8, ⟨"./b", .static, none⟩)) ?_
    simp only [htext, hstatement, List.mem_append, List.mem_singleton, true_or]
  refine ⟨himports, hfound, ?_⟩
  intro h
  obtain ⟨i, hi, -⟩ := hfound
  have hnone := himports.symm.trans h.imports
  rw [kind_ofSource, text_ofSource] at hnone
  exact List.not_mem_nil (hnone ▸ hi)

end Module

end Bindery
