import Bindery.Module.Basic
import Bindery.Module.IdSet

/-!
# The module graph

A graph is one snapshot: the modules in order of their ids, and the roots of each entry in order
of declaration. Imports of modules that are not in the graph lead nowhere.
-/

namespace Bindery

/-- An edge seen from its target. -/
structure Dependent where
  importer : ModuleId
  kind : ImportKind
  deriving DecidableEq, Repr

/-- Entry names with what is declared for them, in order of declaration. -/
abbrev EntryMap (α : Type) := List (String × List α)

namespace EntryMap

/-- Declares an entry. An entry that is declared again keeps its place. -/
def declare (name : String) (value : List α) : EntryMap α → EntryMap α
  | [] => [(name, value)]
  | (n, v) :: r => if n = name then (n, value) :: r else (n, v) :: declare name value r

/-- The map with all declarations of a list; of equal names the last counts. -/
def ofList (declarations : List (String × List α)) : EntryMap α :=
  declarations.foldl (fun m d => declare d.1 d.2 m) []

/-- The names of the entries. -/
def names (m : EntryMap α) : List String := m.map (·.1)

theorem names_declare_of_mem {name : String} {value : List α} {m : EntryMap α}
    (h : name ∈ m.names) : (m.declare name value).names = m.names := by
  induction m with
  | nil => simp [names] at h
  | cons e r ih =>
    by_cases he : e.1 = name
    · simp [declare, names, he]
    · have hr : name ∈ names r := by
        simp only [names, List.map_cons, List.mem_cons] at h
        exact h.resolve_left (Ne.symm he)
      have := ih hr
      simp only [names] at this
      simp [declare, names, he, this]

theorem declare_of_notMem {name : String} {value : List α} {m : EntryMap α}
    (h : name ∉ m.names) : m.declare name value = m ++ [(name, value)] := by
  induction m with
  | nil => rfl
  | cons e r ih =>
    simp only [names, List.map_cons, List.mem_cons, not_or] at h
    simp [declare, Ne.symm h.1, ih h.2]

theorem nodup_names_declare {name : String} {value : List α} {m : EntryMap α}
    (h : m.names.Nodup) : (m.declare name value).names.Nodup := by
  by_cases hn : name ∈ m.names
  · rw [names_declare_of_mem hn]
    exact h
  · rw [declare_of_notMem hn, names, List.map_append, List.nodup_append]
    refine ⟨h, by simp, ?_⟩
    intro a ha b hb hab
    simp only [List.map_cons, List.map_nil, List.mem_singleton] at hb
    exact hn (hb ▸ hab ▸ ha)

/-- A name occurs once in the map of a list. -/
theorem nodup_names_ofList (declarations : List (String × List α)) :
    (ofList declarations).names.Nodup := by
  suffices h : ∀ m : EntryMap α, m.names.Nodup →
      (declarations.foldl (fun m d => declare d.1 d.2 m) m).names.Nodup from
    h [] List.nodup_nil
  induction declarations with
  | nil => exact fun m hm => hm
  | cons d r ih => exact fun m hm => ih _ (nodup_names_declare hm)

end EntryMap

/-- Adds a module in order; it replaces a module of the same id. -/
def Module.insertInOrder (m : Module) : List Module → List Module
  | [] => [m]
  | x :: r =>
    if m.id = x.id then m :: r
    else if m.id < x.id then m :: x :: r
    else x :: insertInOrder m r

namespace Module

/-- The modules are in order of their ids, and an id occurs once. -/
def InOrder (modules : List Module) : Prop := modules.Pairwise fun a b => a.id < b.id

theorem mem_insertInOrder {m x : Module} {l : List Module} (h : x ∈ insertInOrder m l) :
    x = m ∨ x ∈ l := by
  induction l with
  | nil => simpa [insertInOrder] using h
  | cons y r ih =>
    unfold insertInOrder at h
    split at h
    · rcases List.mem_cons.1 h with h | h
      · exact .inl h
      · exact .inr (List.mem_cons_of_mem _ h)
    · split at h
      · exact List.mem_cons.1 h
      · rcases List.mem_cons.1 h with h | h
        · exact .inr (h ▸ List.mem_cons_self)
        · exact (ih h).imp_right (List.mem_cons_of_mem _)

theorem inOrder_insertInOrder {m : Module} {l : List Module} (h : InOrder l) :
    InOrder (insertInOrder m l) := by
  induction l with
  | nil => exact List.pairwise_singleton _ _
  | cons y r ih =>
    rcases List.pairwise_cons.1 h with ⟨hy, hr⟩
    unfold insertInOrder
    split
    · next he => exact List.pairwise_cons.2 ⟨fun a ha => he ▸ hy a ha, hr⟩
    · next hne =>
      split
      · next hlt =>
        refine List.pairwise_cons.2 ⟨?_, h⟩
        intro a ha
        rcases List.mem_cons.1 ha with rfl | ha
        · exact hlt
        · exact ModuleId.lt_trans hlt (hy a ha)
      · next hnlt =>
        refine List.pairwise_cons.2 ⟨?_, ih hr⟩
        intro a ha
        rcases mem_insertInOrder ha with rfl | ha
        · exact ModuleId.lt_of_not_lt hnlt (Ne.symm hne)
        · exact hy a ha

theorem inOrder_foldl_insertInOrder (modules l : List Module) (h : InOrder l) :
    InOrder (modules.foldl (fun done m => insertInOrder m done) l) := by
  induction modules generalizing l with
  | nil => exact h
  | cons m r ih => exact ih _ (inOrder_insertInOrder h)

end Module

/-- A snapshot of the modules of a project. -/
structure ModuleGraph where
  modules : List Module
  entries : EntryMap ModuleId
  inOrder : Module.InOrder modules
  /-- An entry is declared once. -/
  nodup_names : entries.names.Nodup

namespace ModuleGraph

/-- The graph without modules and entries. -/
def empty : ModuleGraph := ⟨[], [], List.Pairwise.nil, List.nodup_nil⟩

/-- The graph of some modules, in any order. Of modules with the same id the last counts. -/
def ofModules (entries : EntryMap ModuleId) (modules : List Module) : ModuleGraph :=
  { modules := modules.foldl (fun done m => m.insertInOrder done) []
    entries := .ofList entries
    inOrder := Module.inOrder_foldl_insertInOrder _ _ List.Pairwise.nil
    nodup_names := EntryMap.nodup_names_ofList _ }

def module? (g : ModuleGraph) (id : ModuleId) : Option Module := g.modules.find? (·.id = id)

def contains (g : ModuleGraph) (id : ModuleId) : Bool := g.modules.any (·.id = id)

def ids (g : ModuleGraph) : List ModuleId := g.modules.map (·.id)

/-- The imports of a module whose targets are in the graph, in source order. -/
def dependencies (g : ModuleGraph) (id : ModuleId) : List (ModuleId × ImportKind) :=
  match g.module? id with
  | some m => m.dependencies.filter fun d => g.contains d.1
  | none => []

/-- The edges that lead to an id, in order of the importers, each once. -/
def dependents (g : ModuleGraph) (id : ModuleId) : List Dependent :=
  (g.modules.flatMap fun m =>
    m.dependencies.filterMap fun d =>
      if d.1 = id then some { importer := m.id, kind := d.2 : Dependent } else none).eraseDups

/-- The members of a list that are not in `seen`, each once, in order. -/
def fresh (seen : List ModuleId) : List ModuleId → List ModuleId
  | [] => []
  | id :: r => if seen.contains id then fresh seen r else id :: fresh (id :: seen) r

/-- Adds to `seen`, level by level, everything that `next` leads to from the queue. -/
def explore (next : ModuleId → List ModuleId) : (fuel : Nat) → (queue seen : List ModuleId) →
    List ModuleId
  | 0, _, seen => seen
  | _ + 1, [], seen => seen
  | fuel + 1, id :: queue, seen =>
    let found := fresh seen (next id)
    explore next fuel (queue ++ found) (seen ++ found)

/-- The modules that edges of the wanted kinds lead to, the roots first and nearer ones before
farther ones. Roots that are not in the graph do not count. -/
def closure (g : ModuleGraph) (follow : ImportKind → Bool) (roots : List ModuleId) :
    List ModuleId :=
  let start := fresh [] (roots.filter g.contains)
  let next (id : ModuleId) := ((g.dependencies id).filter fun d => follow d.2).map (·.1)
  explore next (g.modules.length + 1) start start

/-- What is loaded together with the roots. -/
def staticClosure (g : ModuleGraph) (roots : List ModuleId) : List ModuleId :=
  g.closure ImportKind.isStatic roots

/-- What can be loaded from the roots at all. -/
def fullClosure (g : ModuleGraph) (roots : List ModuleId) : List ModuleId :=
  g.closure (fun _ => true) roots

/-- The targets of dynamic imports, in the order in which the sorted modules name them. -/
def dynamicTargets (g : ModuleGraph) : List ModuleId :=
  fresh [] (g.modules.flatMap fun m =>
    m.dependencies.filterMap fun d =>
      if d.2 = .dynamic && g.contains d.1 then some d.1 else none)

/-- The given ids and every module that imports one of them, directly or not. -/
def ancestors (g : ModuleGraph) (changed : List ModuleId) : IdSet :=
  let start := fresh [] changed
  let next (id : ModuleId) := (g.dependents id).map (·.importer)
  IdSet.ofList (explore next (start.length + g.modules.length + 1) start start)

/-- The entries from which one of the ids can be reached, in order of declaration. -/
def entriesContaining (g : ModuleGraph) (ids : List ModuleId) : List String :=
  (g.entries.filter fun e => (g.fullClosure e.2).any ids.contains).map (·.1)

/-- The stand-ins for modules that were not found. -/
def stubs (g : ModuleGraph) : List Module := g.modules.filter (·.isStub)

end ModuleGraph

end Bindery
