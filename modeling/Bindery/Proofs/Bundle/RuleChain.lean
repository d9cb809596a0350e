import Mathlib.Data.List.Basic
import Bindery.Bundle.Transform

/-!
# What a module becomes

One rule decides what a module becomes. A stand-in is a script as it is. An asset rule comes before
all others, and the first one that matches names the copy. Otherwise the first rule that applies gives
a chain of engines, which are run only if all of them are registered: each gets what the one before it
made, and the first that fails ends the chain. A module that no rule applies to is used as it is.

Here the chain is told without a loop, by what its engines hand on. What an engine would have said that
is not asked makes no difference.

* `Treatment.IsFirst` : the first member of a list with a property.
* `Transformer.Passes`, `Transformer.Fails` : engines that hand on what they make, and one that does not.
* `Transformer.Becomes` : what a module becomes, rule by rule.
* `Transformer.Asks` : the questions that engines are asked.
* `Transformer.becomes_by_rule` : what a module becomes, and that it hangs on the replies alone.
-/

namespace Bindery

/-! ## The rule that decides -/

namespace Treatment

variable {α : Type} {P : α → Prop} {p : α → Bool} {items : List α} {i : Nat} {a : α}

/-- The first member of a list with a property, at its place. -/
structure IsFirst (P : α → Prop) (items : List α) (i : Nat) (a : α) : Prop where
  here : items[i]? = some a
  holds : P a
  before : ∀ j < i, ∀ b, items[j]? = some b → ¬P b

theorem IsFirst.mem (h : IsFirst P items i a) : a ∈ items := List.mem_of_getElem? h.here

theorem firstWith_eq_some_iff :
    firstWith p items = some (i, a) ↔ IsFirst (fun b => p b = true) items i a := by
  rw [firstWith, Option.bind_eq_some_iff]
  constructor
  · rintro ⟨j, hj, hitem⟩
    obtain ⟨b, hb, heq⟩ := Option.map_eq_some_iff.1 hitem
    obtain ⟨rfl, rfl⟩ := Prod.mk.inj heq
    obtain ⟨hlt, hholds, hbefore⟩ := List.findIdx?_eq_some_iff_getElem.1 hj
    rw [List.getElem?_eq_getElem hlt] at hb
    refine ⟨List.getElem?_eq_getElem hlt ▸ hb, Option.some.inj hb ▸ hholds, ?_⟩
    intro k hk c hc
    rw [List.getElem?_eq_getElem (Nat.lt_trans hk hlt)] at hc
    exact Option.some.inj hc ▸ hbefore k hk
  · intro h
    obtain ⟨hlt, hget⟩ := List.getElem?_eq_some_iff.1 h.here
    refine ⟨i, List.findIdx?_eq_some_iff_getElem.2 ⟨hlt, hget ▸ h.holds, ?_⟩, by simp [h.here]⟩
    intro j hj
    exact h.before j hj _ (List.getElem?_eq_getElem (Nat.lt_trans hj hlt))

theorem firstWith_eq_none_iff : firstWith p items = none ↔ ∀ b ∈ items, p b = false := by
  rw [← List.findIdx?_eq_none_iff]
  constructor
  · intro h
    by_contra hfound
    obtain ⟨j, hj⟩ := Option.ne_none_iff_exists'.1 hfound
    obtain ⟨hlt, -⟩ := List.findIdx?_eq_some_iff_getElem.1 hj
    simp [firstWith, hj, hlt] at h
  · intro h
    rw [firstWith, h]
    rfl

/-- The first member with a property, where there is one. -/
theorem isFirst_of_find? (h : items.find? p = some a) :
    ∃ i, IsFirst (fun b => p b = true) items i a := by
  obtain ⟨hholds, before, after, rfl, hbefore⟩ := List.find?_eq_some_iff_append.1 h
  refine ⟨before.length, by simp, hholds, ?_⟩
  intro j hj b hb hcontra
  rw [List.getElem?_append_left hj] at hb
  have hnot := hbefore b (List.mem_of_getElem? hb)
  rw [hcontra] at hnot
  cases hnot

end Treatment

/-- A rule applies to the texts that its test matches and its exclusion does not. -/
structure Rule.AppliesTo (r : Rule) (text : String) : Prop where
  kept : ∀ p, r.exclude = some p → p.isMatch text = false
  tested : r.test.isMatch text = true

theorem Rule.applies_iff {r : Rule} {text : String} : r.applies text = true ↔ r.AppliesTo text := by
  rw [applies, Bool.and_eq_true, Bool.not_eq_true']
  constructor
  · rintro ⟨hkept, htested⟩
    refine ⟨?_, htested⟩
    intro p hp
    rwa [hp, Option.any_some] at hkept
  · rintro ⟨hkept, htested⟩
    refine ⟨?_, htested⟩
    cases hexclude : r.exclude with
    | none => rfl
    | some p => exact hkept p hexclude

namespace EngineRegistry

variable {registry : EngineRegistry} {engine : Engine} {name : String}

theorem has_iff : registry.has name = true ↔ name ∈ registry.map (·.name) := by
  simp [has, get?]

theorem name_of_get? (h : registry.get? name = some engine) : engine.name = name := by
  simpa using List.find?_some h

end EngineRegistry

namespace Transformer

open Treatment

variable {t : Transformer} {m : Module} {id : ModuleId} {i j : Nat} {a : AssetRule} {r : Rule}
  {s : EngineStep} {chain before after : List EngineStep} {o made out : EngineOutput}
  {engine : Engine} {e : BuildError} {registry : EngineRegistry}

/-- The asset rule that a module is copied by. -/
structure Copied (t : Transformer) (m : Module) (i : Nat) (a : AssetRule) : Prop where
  found : m.isStub = false
  first : IsFirst (fun a => a.test.isMatch m.id.text = true) t.assets i a

/-- The module is neither a stand-in nor copied by an asset rule. -/
structure Open (t : Transformer) (m : Module) : Prop where
  found : m.isStub = false
  notCopied : ∀ a ∈ t.assets, a.test.isMatch m.id.text = false

/-- The rule whose chain a module goes through. -/
structure Ruled (t : Transformer) (m : Module) (i : Nat) (r : Rule) : Prop extends Open t m where
  first : IsFirst (fun r => r.AppliesTo m.id.text) t.rules i r

/-- No rule applies to the module. -/
structure Unruled (t : Transformer) (m : Module) : Prop extends Open t m where
  notRuled : ∀ r ∈ t.rules, ¬r.AppliesTo m.id.text

theorem Copied.classify_eq (h : t.Copied m i a) :
    classify m.id.text t.rules t.assets = .asset i a.filename := by
  have hfirst : matchingAsset? m.id.text t.assets = some (i, a) := firstWith_eq_some_iff.2 h.first
  rw [classify, hfirst]

theorem Open.matchingAsset?_eq (h : t.Open m) : matchingAsset? m.id.text t.assets = none :=
  firstWith_eq_none_iff.2 h.notCopied

theorem Ruled.classify_eq (h : t.Ruled m i r) :
    classify m.id.text t.rules t.assets = .transform i r.chain := by
  have hfirst : matchingRule? m.id.text t.rules = some (i, r) := by
    refine firstWith_eq_some_iff.2 ?_
    simp only [Rule.applies_iff]
    exact h.first
  rw [classify, h.matchingAsset?_eq, hfirst]

theorem Unruled.classify_eq (h : t.Unruled m) :
    classify m.id.text t.rules t.assets = .passThrough := by
  have hnone : matchingRule? m.id.text t.rules = none := by
    refine firstWith_eq_none_iff.2 ?_
    intro r hr
    rw [← Bool.not_eq_true, Rule.applies_iff]
    exact h.notRuled r hr
  rw [classify, h.matchingAsset?_eq, hnone]

/-- One of four things decides what a module becomes. -/
theorem decided (t : Transformer) (m : Module) :
    m.isStub = true ∨ (∃ i a, t.Copied m i a) ∨ (∃ i r, t.Ruled m i r) ∨ t.Unruled m := by
  by_cases hstub : m.isStub = true
  · exact .inl hstub
  · have hfound : m.isStub = false := Bool.not_eq_true _ ▸ hstub
    refine .inr ?_
    cases hasset : matchingAsset? m.id.text t.assets with
    | some found => exact .inl ⟨found.1, found.2, hfound, firstWith_eq_some_iff.1 hasset⟩
    | none =>
      have hopen : t.Open m := ⟨hfound, firstWith_eq_none_iff.1 hasset⟩
      refine .inr ?_
      cases hrule : matchingRule? m.id.text t.rules with
      | some found =>
        have hfirst := firstWith_eq_some_iff.1 hrule
        simp only [Rule.applies_iff] at hfirst
        exact .inl ⟨found.1, found.2, hopen, hfirst⟩
      | none =>
        refine .inr ⟨hopen, ?_⟩
        intro r hr hcontra
        have hnot := firstWith_eq_none_iff.1 hrule r hr
        rw [Rule.applies_iff.2 hcontra] at hnot
        cases hnot

/-! ## Chains of engines -/

/-- What the engine of a step is asked about some code. -/
def question (t : Transformer) (id : ModuleId) (s : EngineStep) (o : EngineOutput) : EngineInput :=
  { module := id, code := o.code, kind := o.kind, options := s.options, mode := t.mode }

/-- All engines of a chain are registered. -/
def Known (t : Transformer) (chain : List EngineStep) : Prop :=
  ∀ s ∈ chain, t.registry.has s.engine = true

/-- The engines of some steps, one after the other, turn one piece of code into another: each gets
what the one before it made. -/
inductive Passes (t : Transformer) (id : ModuleId) :
    List EngineStep → EngineOutput → EngineOutput → Prop
  | done (o : EngineOutput) : Passes t id [] o o
  | next {s : EngineStep} {r : List EngineStep} {o made out : EngineOutput} {engine : Engine}
      (hengine : t.registry.get? s.engine = some engine)
      (hreply : engine.apply (t.question id s o) = .done made) (hrest : Passes t id r made out) :
      Passes t id (s :: r) o out

/-- The engine of a step fails on some code, or does not come to an end. -/
inductive Fails (t : Transformer) (id : ModuleId) (s : EngineStep) (o : EngineOutput) :
    BuildError → Prop
  | failed {engine : Engine} {e : EngineError} (hengine : t.registry.get? s.engine = some engine)
      (hreply : engine.apply (t.question id s o) = .failed e) :
      Fails t id s o (.transform id s.engine e.message)
  | hangs {engine : Engine} (hengine : t.registry.get? s.engine = some engine)
      (hreply : engine.apply (t.question id s o) = .hangs) :
      Fails t id s o (.timedOut id s.engine (engine.timeoutMs.getD t.timeoutMs))

theorem Passes.append_singleton (h : t.Passes id before o made)
    (hengine : t.registry.get? s.engine = some engine)
    (hreply : engine.apply (t.question id s made) = .done out) :
    t.Passes id (before ++ [s]) o out := by
  induction h with
  | done o => exact .next hengine hreply (.done out)
  | next hfirst hhanded _ ih => exact .next hfirst hhanded (ih hreply)

theorem Passes.known (h : t.Passes id chain o out) : t.Known chain := by
  induction h with
  | done o => exact List.forall_mem_nil _
  | next hengine _ _ ih =>
    refine List.forall_mem_cons.2 ⟨?_, ih⟩
    rw [EngineRegistry.has, hengine, Option.isSome_some]

/-- Engines that hand on what they make give the result of the chain. -/
theorem Passes.runChain_eq (h : t.Passes id before o made) (i : Nat) (after : List EngineStep) :
    t.runChain id i (before ++ after) o.kind o.code = t.runChain id i after made.kind made.code := by
  induction h with
  | done o => rfl
  | next hengine hreply _ ih =>
    simp only [question] at hreply
    simpa only [List.cons_append, runChain, hengine, hreply] using ih

theorem Fails.runChain_eq (h : t.Fails id s o e) (i : Nat) (after : List EngineStep) :
    t.runChain id i (s :: after) o.kind o.code = .error e := by
  cases h with
  | failed hengine hreply =>
    simp only [question] at hreply
    simp only [runChain, hengine, hreply]
  | hangs hengine hreply =>
    simp only [question] at hreply
    simp only [runChain, hengine, hreply]

/-- A chain whose engines are registered is gone through to its end, or up to an engine that fails. -/
theorem passes_or_fails (hknown : t.Known chain) (id : ModuleId) (o : EngineOutput) :
    (∃ out, t.Passes id chain o out) ∨
      ∃ before s after made e, chain = before ++ s :: after ∧ t.Passes id before o made ∧
        t.Fails id s made e := by
  induction chain generalizing o with
  | nil => exact .inl ⟨o, .done o⟩
  | cons s r ih =>
    obtain ⟨hfirst, hrest⟩ := List.forall_mem_cons.1 hknown
    obtain ⟨engine, hengine⟩ := Option.isSome_iff_exists.1 hfirst
    cases hreply : engine.apply (t.question id s o) with
    | done made =>
      rcases ih hrest made with ⟨out, hpasses⟩ | ⟨before, s', after, made', e, rfl, hpasses, hfails⟩
      · exact .inl ⟨out, .next hengine hreply hpasses⟩
      · exact .inr ⟨s :: before, s', after, made', e, rfl, .next hengine hreply hpasses, hfails⟩
    | failed e => exact .inr ⟨[], s, r, o, _, rfl, .done o, .failed hengine hreply⟩
    | hangs => exact .inr ⟨[], s, r, o, _, rfl, .done o, .hangs hengine hreply⟩

/-! ## Modules -/

/-- What the chain of a module starts from. -/
def startOf (m : Module) : EngineOutput := { code := m.text, kind := initialKind m.kind }

/-- What a module becomes, or why it does not. -/
inductive Becomes (t : Transformer) (m : Module) : Except BuildError ModuleOutput → Prop
  /-- A stand-in is a script as it is. -/
  | standIn (hstub : m.isStub = true) : Becomes t m (.ok (.code .script m.text))
  /-- The first asset rule that matches names the copy. -/
  | copied {i : Nat} {a : AssetRule} (h : t.Copied m i a) :
      Becomes t m (.ok (.asset (FileName.ofAsset a.filename m.id m.source) m.source))
  /-- The first engine of the chain that is not registered is told, with the place of the rule. -/
  | unknown {i j : Nat} {r : Rule} {s : EngineStep} (h : t.Ruled m i r)
      (hfirst : IsFirst (fun s => t.registry.has s.engine = false) r.chain j s) :
      Becomes t m (.error (.unknownTransform m.id i s.engine))
  /-- The engines of the chain hand on what they make. -/
  | made {i : Nat} {r : Rule} {out : EngineOutput} (h : t.Ruled m i r)
      (hpasses : t.Passes m.id r.chain (startOf m) out) :
      Becomes t m (.ok (.code out.kind out.code))
  /-- An engine fails on what those before it have made. -/
  | failed {i : Nat} {r : Rule} {before after : List EngineStep} {s : EngineStep}
      {made : EngineOutput} {e : BuildError} (h : t.Ruled m i r) (hknown : t.Known r.chain)
      (hchain : r.chain = before ++ s :: after) (hpasses : t.Passes m.id before (startOf m) made)
      (hfails : t.Fails m.id s made e) : Becomes t m (.error e)
  /-- Without a rule a resource is copied. -/
  | resource (h : t.Unruled m) (hkind : m.kind = .resource) :
      Becomes t m (.ok (.asset (FileName.ofAsset AssetRule.defaultFilename m.id m.source) m.source))
  /-- Without a rule all else is code as it is. -/
  | plain (h : t.Unruled m) (hkind : m.kind ≠ .resource) :
      Becomes t m (.ok (.code (initialKind m.kind) m.text))

/-- The engine of a step is asked, while a module goes through its chain, about what those before it
have made. -/
def Asks (t : Transformer) (m : Module) (engine : Engine) (input : EngineInput) : Prop :=
  ∃ i r before s after made, t.Ruled m i r ∧ t.Known r.chain ∧ r.chain = before ++ s :: after ∧
    t.Passes m.id before (startOf m) made ∧ t.registry.get? s.engine = some engine ∧
    input = t.question m.id s made

theorem known_iff : t.Known chain ↔ chain.find? (fun s => !t.registry.has s.engine) = none := by
  simp [Known]

theorem Ruled.transformModule_eq (h : t.Ruled m i r) (hknown : t.Known r.chain) :
    t.transformModule m = t.runChain m.id i r.chain (initialKind m.kind) m.text := by
  simp [transformModule, h.found, h.classify_eq, engineFault?, known_iff.1 hknown]

/-- What a module becomes is what is made of it. -/
theorem Becomes.transformModule_eq {result : Except BuildError ModuleOutput}
    (h : t.Becomes m result) : t.transformModule m = result := by
  cases h with
  | standIn hstub => simp [transformModule, hstub]
  | copied h => simp [transformModule, h.found, h.classify_eq, engineFault?, copyOf]
  | @unknown i j r s h hfirst =>
    have hfind : r.chain.find? (fun s => !t.registry.has s.engine) = some s := by
      refine List.find?_eq_some_iff_getElem.2 ?_
      obtain ⟨hlt, hget⟩ := List.getElem?_eq_some_iff.1 hfirst.here
      refine ⟨by simp [hfirst.holds], j, hlt, hget, ?_⟩
      intro k hk
      have hnot := hfirst.before k hk _ (List.getElem?_eq_getElem (Nat.lt_trans hk hlt))
      simpa using hnot
    simp [transformModule, h.found, h.classify_eq, engineFault?, hfind]
  | @made i r out h hpasses =>
    have hrun := hpasses.runChain_eq i []
    rw [List.append_nil] at hrun
    rw [h.transformModule_eq hpasses.known]
    exact hrun
  | @failed i r before after s made e h hknown hchain hpasses hfails =>
    rw [h.transformModule_eq hknown, hchain]
    exact (hpasses.runChain_eq i _).trans (hfails.runChain_eq i after)
  | resource h hkind => simp [transformModule, h.found, h.classify_eq, engineFault?, hkind, copyOf]
  | plain h hkind => simp [transformModule, h.found, h.classify_eq, engineFault?, hkind]

/-- Every module becomes something, or there is a reason why it does not. -/
theorem exists_becomes (t : Transformer) (m : Module) : ∃ result, t.Becomes m result := by
  rcases t.decided m with hstub | ⟨i, a, h⟩ | ⟨i, r, h⟩ | h
  · exact ⟨_, .standIn hstub⟩
  · exact ⟨_, .copied h⟩
  · cases hfind : r.chain.find? (fun s => !t.registry.has s.engine) with
    | some s =>
      obtain ⟨j, hfirst⟩ := isFirst_of_find? hfind
      simp only [Bool.not_eq_true'] at hfirst
      exact ⟨_, .unknown h hfirst⟩
    | none =>
      have hknown := known_iff.2 hfind
      rcases passes_or_fails hknown m.id (startOf m) with
        ⟨out, hpasses⟩ | ⟨before, s, after, made, e, hchain, hpasses, hfails⟩
      · exact ⟨_, .made h hpasses⟩
      · exact ⟨_, .failed h hknown hchain hpasses hfails⟩
  · by_cases hkind : m.kind = .resource
    · exact ⟨_, .resource h hkind⟩
    · exact ⟨_, .plain h hkind⟩

theorem transformModule_eq_iff {result : Except BuildError ModuleOutput} :
    t.transformModule m = result ↔ t.Becomes m result := by
  constructor
  · rintro rfl
    obtain ⟨result, h⟩ := t.exists_becomes m
    rwa [h.transformModule_eq]
  · exact fun h => h.transformModule_eq

/-! ## What engines are asked -/

/-- Other engines under the same names that give the same replies to what is asked. -/
structure Agrees (t : Transformer) (m : Module) (registry : EngineRegistry) : Prop where
  names : ∀ name, registry.has name = t.registry.has name
  replies : ∀ engine input, t.Asks m engine input → ∃ other, registry.get? engine.name = some other ∧
    other.apply input = engine.apply input ∧ other.timeoutMs = engine.timeoutMs

/-- Asking other engines that agree, a step takes the same course. -/
theorem Agrees.exists_same (h : t.Agrees m registry) (hruled : t.Ruled m i r)
    (hknown : t.Known r.chain) (hchain : r.chain = before ++ s :: after)
    (hpasses : t.Passes m.id before (startOf m) made)
    (hengine : t.registry.get? s.engine = some engine) :
    ∃ other, registry.get? s.engine = some other ∧
      other.apply (t.question m.id s made) = engine.apply (t.question m.id s made) ∧
      other.timeoutMs = engine.timeoutMs := by
  have hasks : t.Asks m engine (t.question m.id s made) :=
    ⟨i, r, before, s, after, made, hruled, hknown, hchain, hpasses, hengine, rfl⟩
  have hsame := h.replies engine _ hasks
  rwa [EngineRegistry.name_of_get? hengine] at hsame

/-- The rest of a chain takes the same course as well, whatever part of it is behind. -/
theorem Agrees.passes (h : t.Agrees m registry) (hruled : t.Ruled m i r) (hknown : t.Known r.chain)
    {behind steps : List EngineStep} (hchain : r.chain = behind ++ (steps ++ after))
    (hbehind : t.Passes m.id behind (startOf m) made) (hpasses : t.Passes m.id steps made out) :
    Passes { t with registry } m.id steps made out := by
  induction hpasses generalizing behind with
  | done o => exact .done o
  | @next s rest o handed out engine hengine hreply _ ih =>
    obtain ⟨other, hother, hsame, -⟩ := h.exists_same hruled hknown hchain hbehind hengine
    have hnext := ih (by rw [hchain]; simp) (hbehind.append_singleton hengine hreply)
    exact .next hother (hsame.trans hreply) hnext

theorem Agrees.fails (h : t.Agrees m registry) (hruled : t.Ruled m i r) (hknown : t.Known r.chain)
    (hchain : r.chain = before ++ s :: after) (hpasses : t.Passes m.id before (startOf m) made)
    (hfails : t.Fails m.id s made e) : Fails { t with registry } m.id s made e := by
  cases hfails with
  | failed hengine hreply =>
    obtain ⟨other, hother, hsame, -⟩ := h.exists_same hruled hknown hchain hpasses hengine
    exact .failed hother (hsame.trans hreply)
  | hangs hengine hreply =>
    obtain ⟨other, hother, hsame, hlimit⟩ := h.exists_same hruled hknown hchain hpasses hengine
    rw [← hlimit]
    exact .hangs hother (hsame.trans hreply)

/-- Engines that agree on what is asked make the same of a module. -/
theorem Agrees.becomes {result : Except BuildError ModuleOutput} (h : t.Agrees m registry)
    (hresult : t.Becomes m result) : Becomes { t with registry } m result := by
  have hruled : ∀ {i r}, t.Ruled m i r → Ruled { t with registry } m i r :=
    fun h => ⟨⟨h.found, h.notCopied⟩, h.first⟩
  have hunruled : t.Unruled m → Unruled { t with registry } m :=
    fun h => ⟨⟨h.found, h.notCopied⟩, h.notRuled⟩
  have hknown : ∀ {chain}, t.Known chain → Known { t with registry } chain :=
    fun h' s hs => (h.names s.engine).trans (h' s hs)
  cases hresult with
  | standIn hstub => exact .standIn hstub
  | copied h' => exact .copied ⟨h'.found, h'.first⟩
  | @unknown i j r s h' hfirst =>
    have hsame : IsFirst (fun s => registry.has s.engine = false) r.chain j s := by
      simpa only [h.names] using hfirst
    exact .unknown (hruled h') hsame
  | @made i r out h' hpasses =>
    have hchain : r.chain = [] ++ (r.chain ++ []) := by simp
    exact .made (hruled h') (h.passes h' hpasses.known hchain (.done _) hpasses)
  | @failed i r before after s made e h' hall hchain hpasses hfails =>
    have hwhole : r.chain = [] ++ (before ++ s :: after) := hchain
    have hbefore := h.passes h' hall hwhole (.done _) hpasses
    exact .failed (hruled h') (hknown hall) hchain hbefore (h.fails h' hall hchain hpasses hfails)
  | resource h' hkind => exact .resource (hunruled h') hkind
  | plain h' hkind => exact .plain (hunruled h') hkind

/-- Where an engine of the chain is not registered, none is asked. -/
theorem Becomes.not_asks {name : String}
    (h : t.Becomes m (.error (.unknownTransform m.id i name))) (input : EngineInput) :
    ¬t.Asks m engine input := by
  rintro ⟨i', r', -, -, -, -, hruled, hknown, -⟩
  cases h with
  | @unknown _ _ r s h hfirst =>
    have hsame : (Treatment.transform i r.chain) = .transform i' r'.chain :=
      h.classify_eq.symm.trans hruled.classify_eq
    rw [← (Treatment.transform.inj hsame).2] at hknown
    have hnot := hknown s hfirst.mem
    rw [hfirst.holds] at hnot
    cases hnot
  | failed _ _ _ _ hfails => cases hfails

/-- What a module becomes follows from the rule that decides it. It hangs on what engines reply to the
questions that they are asked, and where one that the chain needs is not registered none is asked at
all. -/
theorem becomes_by_rule (t : Transformer) (m : Module) :
    (∀ result, t.transformModule m = result ↔ t.Becomes m result) ∧
      (∀ registry, t.Agrees m registry →
        { t with registry }.transformModule m = t.transformModule m) ∧
      ∀ i name, t.transformModule m = .error (.unknownTransform m.id i name) →
        ∀ engine input, ¬t.Asks m engine input := by
  refine ⟨fun _ => transformModule_eq_iff, ?_, ?_⟩
  · intro registry h
    exact transformModule_eq_iff.2 (h.becomes (transformModule_eq_iff.1 rfl))
  · intro i name h engine input
    exact (transformModule_eq_iff.1 h).not_asks input

/-! ### A chain of three engines -/

/-- Makes a style sheet of any code, with a mark behind it. -/
def marking : Engine :=
  { name := "mark", apply := fun i => .done { code := i.code ++ "!", kind := .style } }

/-- Fails, and tells what it was given. -/
def refusing : Engine :=
  { name := "refuse"
    apply := fun i =>
      match i.kind with
      | .style => .failed (.failed i.code)
      | .script => .done { code := "", kind := .script } }

/-- Says the same to everything. -/
def fixed (reply : EngineReply) : Engine := { name := "fixed", apply := fun _ => reply }

/-- The first rule would apply but for its exclusion. -/
def threeSteps (registry : EngineRegistry) : Transformer :=
  { registry
    rules := [
      { test := .ofLiteral "js$", exclude := some (.ofLiteral "^main"), chain := [] },
      { test := .ofLiteral "js$"
        chain := [{ engine := "mark" }, { engine := "refuse" }, { engine := "fixed" }] }]
    assets := [{ test := .ofLiteral "svg$", filename := "[name]" }]
    timeoutMs := 1
    mode := .development }

def mainScript : Module :=
  { id := ⟨"main.js"⟩, path := "/main.js", kind := .script, source := "x".toUTF8, imports := []
    hash := "", hasGlobalState := false, isStub := false }

theorem classify_mainScript (registry : EngineRegistry) :
    classify mainScript.id.text (threeSteps registry).rules (threeSteps registry).assets =
      .transform 1 [{ engine := "mark" }, { engine := "refuse" }, { engine := "fixed" }] := rfl

/-- Nothing is asked behind the engine that fails. -/
theorem asks_mainScript {input : EngineInput}
    (h : (threeSteps [marking, refusing, fixed .hangs]).Asks mainScript engine input) :
    engine = marking ∨ engine = refusing := by
  obtain ⟨i, r, before, s, after, made, hruled, -, hchain, hpasses, hengine, -⟩ := h
  have hsteps := hruled.classify_eq.symm.trans (classify_mainScript _)
  rw [(Treatment.transform.inj hsteps).2] at hchain
  match before, hchain, hpasses with
  | [], hchain, _ =>
    obtain ⟨rfl, -⟩ := List.cons.inj hchain
    exact .inl (Option.some.inj hengine).symm
  | [b], hchain, _ =>
    obtain ⟨-, hrest⟩ := List.cons.inj hchain
    obtain ⟨rfl, -⟩ := List.cons.inj hrest
    exact .inr (Option.some.inj hengine).symm
  | b :: b' :: more, hchain, hpasses =>
    obtain ⟨rfl, hrest⟩ := List.cons.inj hchain
    obtain ⟨rfl, -⟩ := List.cons.inj hrest
    cases hpasses with
    | next hmark hmarked hmore =>
      obtain rfl := Option.some.inj hmark
      obtain rfl := EngineReply.done.inj hmarked
      cases hmore with
      | next hrefuse hrefused _ =>
        obtain rfl := Option.some.inj hrefuse
        cases hrefused

/-- The second engine gets the marked style sheet and fails, so what the third one would say makes no
difference. Where the second one is not registered nothing is asked. -/
theorem becomes_by_rule_threeSteps :
    (threeSteps [marking, refusing, fixed .hangs]).Agrees mainScript
        [marking, refusing, fixed (.done ⟨"y", .script⟩)] ∧
      (threeSteps [marking, refusing, fixed (.done ⟨"y", .script⟩)]).transformModule mainScript =
        .error (.transform ⟨"main.js"⟩ "refuse" "x!") ∧
      (threeSteps [marking]).transformModule mainScript =
        .error (.unknownTransform ⟨"main.js"⟩ 1 "refuse") ∧
      ∀ engine input, ¬(threeSteps [marking]).Asks mainScript engine input := by
  have hagrees : (threeSteps [marking, refusing, fixed .hangs]).Agrees mainScript
      [marking, refusing, fixed (.done ⟨"y", .script⟩)] := by
    constructor
    · intro name
      rw [Bool.eq_iff_iff, EngineRegistry.has_iff, EngineRegistry.has_iff]
      rfl
    · intro engine input hasks
      rcases asks_mainScript hasks with rfl | rfl
      · exact ⟨marking, rfl, rfl, rfl⟩
      · exact ⟨refusing, rfl, rfl, rfl⟩
  refine ⟨hagrees, ?_, rfl, ?_⟩
  · exact ((becomes_by_rule (threeSteps [marking, refusing, fixed .hangs]) mainScript).2.1 _
      hagrees).trans rfl
  · exact (becomes_by_rule (threeSteps [marking]) mainScript).2.2 1 "refuse" rfl

end Transformer

end Bindery
