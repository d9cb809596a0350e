import Bindery.Proofs.Bundle.ChunkName
import Bindery.Proofs.Bundle.Placement
import Bindery.Proofs.Profile.Check

/-!
# Public names

Pages ask for their entries by name, and what a named group gathers is known by the name of the
group. Chunks for both are made before all others, and a profile that is accepted gives each of them
a name of its own. So they get the names they ask for, whatever is asked for by chunks of shared
modules and of dynamic targets.

* `Plan.Distinguishes` : slots that somebody named ask for names of their own.
* `Plan.exists_named_slot` : then their chunks have the names they ask for.
* `distinguishes_finalSlots` : the slots of a graph do so when its profile is accepted.
* `Named` : chunks with names of their own, those of entries and groups being as declared.
* `split_named` : splitting for production names chunks that way, and no search for a name goes on
  for ever.
-/

namespace Bindery

/-- Slots that somebody named come before all others. -/
theorem Slot.isMergeable_eq_false_of_lt {a b : Slot} (h : a.lt b = true)
    (hb : b.isMergeable = false) : a.isMergeable = false := by
  -- before the slot of an entry or of a group there are only slots of these two classes
  cases b with
  | entry n => cases a <;> simp [lt, rank, isMergeable, onDemand?] at h ⊢
  | group n => cases a <;> simp [lt, rank, isMergeable, onDemand?] at h ⊢
  | sharedInitial names => cases hb
  | sharedAsync names => cases hb
  | async n => cases hb

namespace Split

variable {g : ModuleGraph} {p : Plan} {slots : SlotMap} {settings : SplitSettings}
  {assets : List ModuleId} {names : List String} {name : String} {s : Slot × List ModuleId}
  {c : Chunk}

/-! ## The order of asking -/

/-- Slots that somebody named ask for names, each for one of its own. -/
structure Plan.Distinguishes (p : Plan) (slots : SlotMap) : Prop where
  named : ∀ s ∈ slots, s.1.isMergeable = false → p.baseName s.1 ≠ ""
  apart : ∀ s ∈ slots, ∀ t ∈ slots, s.1.isMergeable = false → t.1.isMergeable = false →
    p.baseName s.1 = p.baseName t.1 → s.1 = t.1

/-- Fewer slots are not in each other's way either. -/
theorem Plan.Distinguishes.mono {fewer : SlotMap} (h : p.Distinguishes slots)
    (hfewer : fewer ⊆ slots) : p.Distinguishes fewer where
  named := fun s hs => h.named s (hfewer hs)
  apart := fun s hs t ht => h.apart s (hfewer hs) t (hfewer ht)

theorem Plan.chunks_append_singleton (p : Plan) (g : ModuleGraph) (slots : SlotMap)
    (s : Slot × List ModuleId) : p.chunks g (slots ++ [s]) =
      p.chunks g slots ++ [p.chunk g ((p.chunks g slots).map (·.name)) s.1 s.2] := by
  simp only [chunks, List.foldl_append, List.foldl_cons, List.foldl_nil]

/-- A chunk is made from a slot and has the name that the slot asks for if somebody named the slot.
-/
theorem Plan.exists_named_slot (hord : slots.InOrder) (h : p.Distinguishes slots)
    (hc : c ∈ p.chunks g slots) : ∃ s ∈ slots, (∃ taken, c = p.chunk g taken s.1 s.2) ∧
      (s.1.isMergeable = false → c.name = p.baseName s.1) := by
  -- slots become chunks one after the other, and those before are the only ones with names
  induction slots using List.reverseRecOn generalizing c with
  | nil => exact absurd hc List.not_mem_nil
  | append_singleton slots s ih =>
    obtain ⟨hords, -, hlast⟩ := List.pairwise_append.1 hord
    have hbefore : ∀ c ∈ p.chunks g slots, ∃ t ∈ slots,
        (∃ taken, c = p.chunk g taken t.1 t.2) ∧
          (t.1.isMergeable = false → c.name = p.baseName t.1) :=
      fun c hc => ih hords (h.mono (List.subset_append_left _ _)) hc
    rw [chunks_append_singleton, List.mem_append, List.mem_singleton] at hc
    rcases hc with hc | rfl
    · obtain ⟨t, ht, hmade⟩ := hbefore c hc
      exact ⟨t, List.mem_append_left _ ht, hmade⟩
    · have hs : s ∈ slots ++ [s] := List.mem_append_right _ (List.mem_singleton_self s)
      refine ⟨s, hs, ⟨_, rfl⟩, ?_⟩
      intro hfixed
      apply uniqueName_eq_self (h.named s hs hfixed)
      rw [List.mem_map]
      rintro ⟨c, hc, hname⟩
      -- who has the name would come from a slot before this one that asked for it
      obtain ⟨t, ht, -, hnamed⟩ := hbefore c hc
      have hlt : t.1.lt s.1 = true := hlast t ht s (List.mem_singleton_self s)
      have htfixed : t.1.isMergeable = false := Slot.isMergeable_eq_false_of_lt hlt hfixed
      have hsame : t.1 = s.1 := by
        apply h.apart t (List.mem_append_left _ ht) s hs htfixed hfixed
        rw [← hnamed htfixed, hname]
      exact Slot.ne_of_lt hlt hsame

/-! ## What entries and groups ask for -/

/-- A slot that somebody named is that of an entry or of a group, and it asks for the name of it. -/
theorem named_slot_cases (hs : s ∈ finalSlots g settings assets)
    (hfixed : s.1.isMergeable = false) :
    (∃ i e, s.1 = .entry i ∧ g.entries[i]? = some e ∧
      (plan g settings.groups assets).baseName s.1 = e.1) ∨
    ∃ k group, s.1 = .group k ∧ settings.groups[k]? = some group ∧
      (plan g settings.groups assets).baseName s.1 = group.name := by
  obtain ⟨slot, ids⟩ := s
  cases slot with
  | entry i =>
    have hlt := lt_of_entry_mem_finalSlots g assets settings hs
    refine .inl ⟨i, g.entries[i], rfl, List.getElem?_eq_getElem hlt, ?_⟩
    simp [Plan.baseName, plan, List.getD, hlt]
  | group k =>
    obtain ⟨-, -, group, hgroup, -⟩ := exists_claimed_of_group_mem hs
    refine .inr ⟨k, group, rfl, hgroup, ?_⟩
    simp [Plan.baseName, plan, List.getD, hgroup]
  | sharedInitial names => cases hfixed
  | sharedAsync names => cases hfixed
  | async i => cases hfixed

/-- Where entries have names and groups can be told apart from them and from each other, no slot asks
for the name of another one. -/
theorem distinguishes_finalSlots (hentries : g.entries.names ⊆ names)
    (hnamed : ∀ name ∈ names, name ≠ "") (hfit : Profile.GroupsFit names settings.groups) :
    (plan g settings.groups assets).Distinguishes (finalSlots g settings assets) := by
  have hentry : ∀ {i : Nat} {e : String × List ModuleId}, g.entries[i]? = some e → e.1 ∈ names :=
    fun he => hentries (List.mem_map_of_mem (List.mem_of_getElem? he))
  constructor
  case named =>
    intro s hs hfixed
    rcases named_slot_cases hs hfixed with ⟨i, e, -, he, hname⟩ | ⟨k, group, -, hgroup, hname⟩
    · rw [hname]
      exact hnamed _ (hentry he)
    · rw [hname]
      exact ne_empty_of_not_blank (hfit.named group (List.mem_of_getElem? hgroup))
  case apart =>
    intro s hs t ht hsfixed htfixed h
    -- an entry and a group never share a name, and two of a kind only if they are the same
    rcases named_slot_cases hs hsfixed with ⟨i, e, hi, he, hname⟩ | ⟨i, a, hi, ha, hname⟩
    · rcases named_slot_cases ht htfixed with ⟨j, f, hj, hf, hname'⟩ | ⟨j, b, hj, hb, hname'⟩
      · rw [hname, hname'] at h
        rw [hi, hj, place_eq_of_name_eq he hf h]
      · rw [hname, hname'] at h
        exact absurd (h ▸ hentry he) (hfit.apart b (List.mem_of_getElem? hb))
    · rcases named_slot_cases ht htfixed with ⟨j, f, hj, hf, hname'⟩ | ⟨j, b, hj, hb, hname'⟩
      · rw [hname, hname'] at h
        exact absurd (h ▸ hentry hf) (hfit.apart a (List.mem_of_getElem? ha))
      · rw [hname, hname'] at h
        rw [hi, hj, place_eq_of_key_eq hfit.nodup ha hb h]

/-! ## Names of chunks -/

/-- The chunk of an entry or of a named group comes from a slot that asks for the name of it. -/
theorem baseName_eq_of_entry_or_group {taken : List String}
    (h : (p.chunk g taken s.1 s.2).entry = some name ∨ (p.chunk g taken s.1 s.2).group = some name) :
    s.1.isMergeable = false ∧ p.baseName s.1 = name := by
  obtain ⟨slot, ids⟩ := s
  cases slot with
  | entry i => exact ⟨rfl, by simpa [Plan.chunk] using h⟩
  | group k => exact ⟨rfl, by simpa [Plan.chunk] using h⟩
  | sharedInitial names => simp [Plan.chunk] at h
  | sharedAsync names => simp [Plan.chunk] at h
  | async i => simp [Plan.chunk] at h

/-- Where slots do not ask for each other's names, chunks of entries and groups have theirs. -/
theorem name_eq_of_entry_or_group
    (h : (plan g settings.groups assets).Distinguishes (finalSlots g settings assets))
    (hc : c ∈ shared g settings assets) (hname : c.entry = some name ∨ c.group = some name) :
    c.name = name := by
  have hord := inOrder_finalSlots g assets settings
  obtain ⟨s, -, ⟨taken, rfl⟩, hnamed⟩ := Plan.exists_named_slot hord h hc
  obtain ⟨hfixed, hbase⟩ := baseName_eq_of_entry_or_group hname
  rw [hnamed hfixed, hbase]

/-- Chunks that have names of their own, those of entries and of named groups as declared. -/
structure Named (g : ModuleGraph) (settings : SplitSettings) (assets : List ModuleId)
    (chunks : ChunkSet) : Prop where
  nodup : (chunks.map (·.name)).Nodup
  nonempty : ∀ c ∈ chunks, c.name ≠ ""
  /-- Every entry has one chunk. -/
  entries : ∀ e ∈ g.entries, ∃! i, chunks.StartsAt i e.1
  entry : ∀ c ∈ chunks, ∀ e, c.entry = some e → c.name = e
  /-- Every group that claims something has one chunk. -/
  groups : ∀ k group, settings.groups[k]? = some group →
    (∃ id ∈ code g assets, ClaimedBy g settings.groups k id) →
    ∃! i : Nat, ∃ c : Chunk, chunks[i]? = some c ∧ c.group = some group.name
  group : ∀ c ∈ chunks, ∀ name, c.group = some name → c.name = name

theorem named_shared
    (h : (plan g settings.groups assets).Distinguishes (finalSlots g settings assets)) :
    Named g settings assets (shared g settings assets) where
  nodup := nodup_names_shared g settings assets
  nonempty := by
    intro c hc
    obtain ⟨s, -, taken, rfl⟩ := exists_slot_of_mem hc
    exact uniqueName_ne_empty _ _
  entries := fun e he => exists_unique_startsAt he
  entry := fun c hc e he => name_eq_of_entry_or_group h hc (.inl he)
  groups := by
    rintro k group hgroup ⟨id, hid, hclaimed⟩
    obtain ⟨i, ⟨c, hi, hchunk⟩, -⟩ := exists_unique_groupChunk hid hclaimed
    obtain ⟨group', hgroup', hname⟩ := hchunk.named
    obtain rfl := Option.some.inj (hgroup.symm.trans hgroup')
    refine ⟨i, ⟨c, hi, hname⟩, ?_⟩
    -- another chunk of the group would have the same name
    rintro j ⟨c', hj, hname'⟩
    apply place_eq_of_key_eq (nodup_names_shared g settings assets) hj hi
    rw [name_eq_of_entry_or_group h (List.mem_of_getElem? hj) (.inr hname'),
      name_eq_of_entry_or_group h (List.mem_of_getElem? hi) (.inr hname)]
  group := fun c hc name hname => name_eq_of_entry_or_group h hc (.inr hname)

/-- Splitting for production names chunks as declared: for every profile that is accepted, every
graph with entries of it, all copies, and whatever else asks for a name. Any search for a name ends,
after at most as many steps as there are names that are taken. -/
theorem split_named (g : ModuleGraph) (p : Profile) (settings : SplitSettings)
    (hproduction : p.split? = some settings) (hvalid : p.validate = .ok ())
    (hentries : g.entries.names ⊆ p.entries.map (·.1)) (assets : List ModuleId) :
    Named g settings assets (g.split p assets) ∧
      ∀ base taken, ∃ n ≤ taken.length, FirstFree (askedName base) taken n ∧
        uniqueName base taken = candidateName (askedName base) n := by
  refine ⟨?_, uniqueName_spec⟩
  have haccepted : p.Accepted := Profile.validate_eq_ok_iff.1 hvalid
  simp only [ModuleGraph.split, hproduction]
  apply named_shared
  apply distinguishes_finalSlots hentries ?_ (haccepted.groups settings hproduction)
  -- names of entries were checked not to be blank
  intro name hname
  obtain ⟨entry, hentry, rfl⟩ := List.mem_map.1 hname
  exact ne_empty_of_not_blank (haccepted.entries entry hentry).1

/-- An entry is called like what two others share, and a group like a target that had to give way to
an entry. -/
def crossing : ModuleGraph :=
  .ofModules [("a", [⟨"a.js"⟩]), ("b", [⟨"b.js"⟩]), ("a~b", [⟨"c.js"⟩])]
    [letter "a.js"
        [⟨"./both", .static, some ⟨"both.js"⟩⟩, ⟨"./lazy/a", .dynamic, some ⟨"lazy/a.js"⟩⟩],
      letter "b.js"
        [⟨"./both", .static, some ⟨"both.js"⟩⟩, ⟨"./util", .static, some ⟨"util.js"⟩⟩],
      letter "c.js" [], letter "both.js" [], letter "util.js" [], letter "lazy/a.js" []]

def crossingSettings : SplitSettings :=
  { minSize := 0, groups := [{ name := "a-2", test := .ofLiteral "util", chunks := .initial }] }

def crossingProfile : Profile :=
  .ofLayer
    { entries := some [("a", ["a.js"]), ("b", ["b.js"]), ("a~b", ["c.js"])]
      publicPath := some "/"
      split := some { minSize := some 0, groups := some crossingSettings.groups } }
    .production {}

theorem split_named_crossing :
    crossingProfile.split? = some crossingSettings ∧ crossingProfile.validate = .ok () ∧
      ((crossing.split crossingProfile []).map (·.name)) =
        ["a", "b", "a~b", "a-2", "a~b-2", "a-3"] ∧
      Named crossing crossingSettings [] (crossing.split crossingProfile []) :=
  ⟨rfl, rfl, by decide +kernel,
    (split_named crossing crossingProfile crossingSettings rfl rfl (by decide) []).1⟩

end Split

end Bindery
