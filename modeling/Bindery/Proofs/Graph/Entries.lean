import Bindery.Proofs.Graph.Run

/-!
# What entries come to

Entries are looked up one specifier after the other, before any module is read. A specifier that is
found makes its id pending; one that is not is told of, and where there are stand-ins it gets one.
Nothing of this depends on what the specifiers before came to.

* `specifiers` : what the entries name, in order.
* `pending_start`, `errors_start`, `mem_seen_start`, `mem_modules_start` : the state from which
  modules are loaded.
-/

namespace Bindery

namespace GraphBuilder

variable {b : GraphBuilder} {p : Project} {entries : EntryMap String} {s : State}
  {specifier : String} {id : ModuleId}

/-- The specifiers of all entries, in order. -/
def specifiers (entries : EntryMap String) : List String := entries.flatMap (·.2)

/-- The id that the specifier of an entry comes to. -/
def entryId? (b : GraphBuilder) (p : Project) (specifier : String) : Option ModuleId :=
  (b.resolveEntry p specifier).toOption

/-- The failure of looking up the specifier of an entry. -/
def entryFailure? (b : GraphBuilder) (p : Project) (specifier : String) : Option GraphError :=
  match b.resolveEntry p specifier with
  | .ok _ => none
  | .error e => some e

theorem entryFailure?_eq_none_iff :
    b.entryFailure? p specifier = none ↔ ∃ id, b.entryId? p specifier = some id := by
  unfold entryFailure? entryId?
  cases b.resolveEntry p specifier with
  | ok id => simp [Except.toOption]
  | error e => simp [Except.toOption]

/-- Looks up one specifier, whichever entry names it. -/
def lookUp (b : GraphBuilder) (p : Project) (s : State) (specifier : String) : State :=
  (b.startEntry p (s, []) specifier).1

theorem startEntry_fst (ids : List ModuleId) (specifier : String) :
    (b.startEntry p (s, ids) specifier).1 = b.lookUp p s specifier := by
  unfold lookUp startEntry
  split
  · rfl
  · split
    · rfl
    · rfl

theorem foldl_startEntry_fst (found : List String) (s : State) (ids : List ModuleId) :
    (found.foldl (b.startEntry p) (s, ids)).1 = found.foldl (b.lookUp p) s := by
  induction found generalizing s ids with
  | nil => rfl
  | cons specifier r ih =>
    rw [List.foldl_cons, List.foldl_cons, ← startEntry_fst ids specifier]
    generalize b.startEntry p (s, ids) specifier = next
    exact ih next.1 next.2

theorem foldl_declareEntry_fst (entries : EntryMap String) (s : State)
    (made : EntryMap ModuleId) : (entries.foldl (b.declareEntry p) (s, made)).1 =
      (specifiers entries).foldl (b.lookUp p) s := by
  induction entries generalizing s made with
  | nil => rfl
  | cons entry r ih =>
    have hflat : specifiers (entry :: r) = entry.2 ++ specifiers r := rfl
    have hentry : (b.declareEntry p (s, made) entry).1 = entry.2.foldl (b.lookUp p) s :=
      foldl_startEntry_fst entry.2 s []
    rw [List.foldl_cons, hflat, List.foldl_append, ← hentry]
    generalize b.declareEntry p (s, made) entry = next
    exact ih next.1 next.2

/-- Looking up the entries is looking up their specifiers one by one. -/
theorem start_fst (b : GraphBuilder) (p : Project) (entries : EntryMap String) :
    (b.start p entries).1 = (specifiers entries).foldl (b.lookUp p) {} :=
  foldl_declareEntry_fst entries {} []

/-! ## One specifier -/

theorem lookUp_of_found (h : b.entryId? p specifier = some id) :
    b.lookUp p s specifier = { s with pending := s.pending ++ [id] } := by
  unfold entryId? at h
  unfold lookUp startEntry
  cases hresolve : b.resolveEntry p specifier with
  | ok found =>
    rw [hresolve] at h
    obtain rfl : found = id := Option.some.inj h
    rfl
  | error e =>
    rw [hresolve] at h
    cases h

theorem lookUp_of_lost {e : GraphError} (h : b.entryFailure? p specifier = some e) :
    b.lookUp p s specifier =
      { (if b.stubUnresolved then s.addStub (.missing specifier none) specifier else s) with
        errors := s.errors ++ [e] } := by
  unfold entryFailure? at h
  unfold lookUp startEntry
  cases hresolve : b.resolveEntry p specifier with
  | ok found =>
    rw [hresolve] at h
    cases h
  | error e' =>
    rw [hresolve] at h
    obtain rfl : e' = e := Option.some.inj h
    dsimp only
    split
    · have herrors : (s.addStub (.missing specifier none) specifier).errors = s.errors := by
        unfold State.addStub
        split
        · rfl
        · rfl
      rw [herrors]
    · rfl

/-- What looking up a specifier changes. -/
structure Entered (b : GraphBuilder) (p : Project) (found : List String) (s s' : State) :
    Prop where
  pending : s'.pending = s.pending ++ found.filterMap (b.entryId? p)
  errors : s'.errors = s.errors ++ found.filterMap (b.entryFailure? p)
  seen : ∀ t, t ∈ s'.seen ↔ t ∈ s.seen ∨
    b.stubUnresolved = true ∧ ∃ x ∈ found, b.entryId? p x = none ∧ t = .missing x none
  /-- New modules are stand-ins for what was not found. -/
  modules : ∀ m ∈ s'.modules, m ∈ s.modules ∨
    b.stubUnresolved = true ∧ ∃ x ∈ found, b.entryId? p x = none ∧ m = .stub (.missing x none) x
  loaded : s'.loaded = s.loaded
  reused : s'.reused = s.reused

theorem mem_seen_addStub {t : ModuleId} :
    t ∈ (s.addStub id specifier).seen ↔ t ∈ s.seen ∨ t = id := by
  unfold State.addStub
  split
  · next hseen =>
    have hmem : id ∈ s.seen := by simpa using hseen
    constructor
    · exact .inl
    · rintro (ht | rfl)
      · exact ht
      · exact hmem
  · rw [List.mem_cons, or_comm]

theorem mem_modules_addStub {m : Module} (h : m ∈ (s.addStub id specifier).modules) :
    m ∈ s.modules ∨ m = .stub id specifier := by
  unfold State.addStub at h
  split at h
  · exact .inl h
  · rwa [List.mem_append, List.mem_singleton] at h

theorem addStub_counts (s : State) (id : ModuleId) (specifier : String) :
    (s.addStub id specifier).pending = s.pending ∧ (s.addStub id specifier).loaded = s.loaded ∧
      (s.addStub id specifier).reused = s.reused := by
  unfold State.addStub
  split
  · exact ⟨rfl, rfl, rfl⟩
  · exact ⟨rfl, rfl, rfl⟩

theorem entered_one (b : GraphBuilder) (p : Project) (s : State) (specifier : String) :
    Entered b p [specifier] s (b.lookUp p s specifier) := by
  cases hfailure : b.entryFailure? p specifier with
  | none =>
    obtain ⟨id, hid⟩ := entryFailure?_eq_none_iff.1 hfailure
    rw [lookUp_of_found hid]
    exact
      { pending := by simp [hid]
        errors := by simp [hfailure]
        seen := by simp [hid]
        modules := fun m hm => .inl hm
        loaded := rfl
        reused := rfl }
  | some e =>
    have hid : b.entryId? p specifier = none := by
      cases hid : b.entryId? p specifier with
      | none => rfl
      | some id =>
        rw [entryFailure?_eq_none_iff.2 ⟨id, hid⟩] at hfailure
        cases hfailure
    rw [lookUp_of_lost hfailure]
    cases hstub : b.stubUnresolved with
    | false =>
      exact
        { pending := by simp [hid]
          errors := by simp [hfailure]
          seen := by simp [hstub]
          modules := fun m hm => .inl hm
          loaded := rfl
          reused := rfl }
    | true =>
      obtain ⟨hpending, hloaded, hreused⟩ :=
        addStub_counts s (.missing specifier none) specifier
      exact
        { pending := by simp [hid, hpending]
          errors := by simp [hfailure]
          seen := by simp [hid, hstub, mem_seen_addStub]
          modules := fun m hm => (mem_modules_addStub hm).imp_right fun heq =>
            ⟨hstub, specifier, List.mem_singleton_self _, hid, heq⟩
          loaded := hloaded
          reused := hreused }

theorem Entered.trans {found more : List String} {s' s'' : State} (h : Entered b p found s s')
    (h' : Entered b p more s' s'') : Entered b p (found ++ more) s s'' where
  pending := by rw [h'.pending, h.pending, List.filterMap_append, List.append_assoc]
  errors := by rw [h'.errors, h.errors, List.filterMap_append, List.append_assoc]
  seen := by
    intro t
    rw [h'.seen, h.seen]
    simp only [List.mem_append]
    constructor
    · rintro ((ht | ⟨hstub, x, hx, hrest⟩) | ⟨hstub, x, hx, hrest⟩)
      · exact .inl ht
      · exact .inr ⟨hstub, x, .inl hx, hrest⟩
      · exact .inr ⟨hstub, x, .inr hx, hrest⟩
    · rintro (ht | ⟨hstub, x, hx | hx, hrest⟩)
      · exact .inl (.inl ht)
      · exact .inl (.inr ⟨hstub, x, hx, hrest⟩)
      · exact .inr ⟨hstub, x, hx, hrest⟩
  modules := by
    intro m hm
    rcases h'.modules m hm with hm | ⟨hstub, x, hx, hrest⟩
    · rcases h.modules m hm with hm | ⟨hstub, x, hx, hrest⟩
      · exact .inl hm
      · exact .inr ⟨hstub, x, List.mem_append_left _ hx, hrest⟩
    · exact .inr ⟨hstub, x, List.mem_append_right _ hx, hrest⟩
  loaded := h'.loaded.trans h.loaded
  reused := h'.reused.trans h.reused

/-! ## All entries -/

theorem entered_nil (b : GraphBuilder) (p : Project) (s : State) : Entered b p [] s s where
  pending := by simp
  errors := by simp
  seen := by simp
  modules := fun _ hm => .inl hm
  loaded := rfl
  reused := rfl

theorem entered_foldl (b : GraphBuilder) (p : Project) (found : List String) (s : State) :
    Entered b p found s (found.foldl (b.lookUp p) s) := by
  induction found generalizing s with
  | nil => exact entered_nil b p s
  | cons specifier r ih =>
    rw [List.foldl_cons]
    exact (entered_one b p s specifier).trans (ih (b.lookUp p s specifier))

/-- The state from which modules are loaded. -/
theorem entered_start (b : GraphBuilder) (p : Project) (entries : EntryMap String) :
    Entered b p (specifiers entries) {} (b.start p entries).1 := by
  rw [start_fst]
  exact entered_foldl b p (specifiers entries) {}

theorem pending_start (b : GraphBuilder) (p : Project) (entries : EntryMap String) :
    (b.start p entries).1.pending = (specifiers entries).filterMap (b.entryId? p) :=
  (entered_start b p entries).pending

theorem errors_start (b : GraphBuilder) (p : Project) (entries : EntryMap String) :
    (b.start p entries).1.errors = (specifiers entries).filterMap (b.entryFailure? p) :=
  (entered_start b p entries).errors

/-- Before modules are loaded, known are the ids of stand-ins for entries. -/
theorem mem_seen_start {t : ModuleId} : t ∈ (b.start p entries).1.seen ↔
    b.stubUnresolved = true ∧
      ∃ x ∈ specifiers entries, b.entryId? p x = none ∧ t = .missing x none := by
  rw [(entered_start b p entries).seen]
  simp

/-- Before modules are loaded there are only stand-ins for entries. -/
theorem mem_modules_start {m : Module} (h : m ∈ (b.start p entries).1.modules) :
    b.stubUnresolved = true ∧
      ∃ x ∈ specifiers entries, b.entryId? p x = none ∧ m = .stub (.missing x none) x :=
  ((entered_start b p entries).modules m h).resolve_left List.not_mem_nil

end GraphBuilder

end Bindery
