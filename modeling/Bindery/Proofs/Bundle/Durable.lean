import Bindery.Proofs.Bundle.Progress
import Bindery.Proofs.Bundle.Reach

/-!
# Writing one file

A single file is written beside its place as well, and takes it when all of it has reached the
device.

* `Output.settle_ok`, `Output.exists_settle` : from beside its place to its place.
* `Output.confined_writeDurably` : no other file is worked on.
* `Output.writeDurably_of_free` : it is written when nothing is in its way.
-/

namespace Bindery

namespace Output

open Path Location

variable {d d' : Disk} {base path : String} {loc : Location} {bytes : ByteArray}

/-! ## Letting a file take its place -/

/-- Seeing to the directory changes nothing, and that it fails does not matter. -/
theorem syncParent_ok (path : String) (d : Disk) :
    ∃ d', syncParent path d = (.ok (), d') ∧ (d' = d ∨ d' = d.after d.tree) := by
  unfold syncParent
  cases parent? path with
  | none => exact ⟨d, rfl, .inl rfl⟩
  | some directory =>
    refine ⟨_, quietly_eq (Disk.sync directory) d, .inr ?_⟩
    rcases hsync : Disk.sync directory d with ⟨result, t⟩
    cases result with
    | ok u => exact Disk.sync_ok hsync
    | error e => exact (Disk.step_error hsync).1

/-- A file that has been settled was written where it waits, and has taken its place from there. -/
theorem settle_ok {u : Unit} (h : settle path bytes d = (.ok u, d')) :
    ∃ d₁ d₂, Disk.writeFile (tempPath path) bytes d = (.ok (), d₁) ∧
      Disk.rename (tempPath path) path (d₁.after d₁.tree) = (.ok (), d₂) ∧
        (d' = d₂ ∨ d' = d₂.after d₂.tree) := by
  obtain ⟨_, d₁, hwrite, hrest⟩ := Work.bind_eq_ok.1 h
  obtain ⟨_, t, hsync, hrest⟩ := Work.bind_eq_ok.1 hrest
  obtain rfl := Disk.sync_ok hsync
  obtain ⟨_, d₂, hrename, hparent⟩ := Work.bind_eq_ok.1 hrest
  obtain ⟨t, hdone, hsame⟩ := syncParent_ok path d₂
  rw [hparent] at hdone
  cases hdone
  exact ⟨d₁, d₂, hwrite, hrename, hsame⟩

theorem exists_settle {d₁ d₂ d₃ : Disk} (hwrite : Disk.writeFile (tempPath path) bytes d = (.ok (), d₁))
    (hsync : Disk.sync (tempPath path) d₁ = (.ok (), d₂))
    (hrename : Disk.rename (tempPath path) path d₂ = (.ok (), d₃)) :
    ∃ d', settle path bytes d = (.ok (), d') := by
  obtain ⟨d', hparent, -⟩ := syncParent_ok path d₃
  exact ⟨d', Work.bind_eq_ok.2 ⟨(), d₁, hwrite, Work.bind_eq_ok.2 ⟨(), d₂, hsync,
    Work.bind_eq_ok.2 ⟨(), d₃, hrename, hparent⟩⟩⟩⟩

/-! ## Writing durably -/

theorem writeDurably_append {parent : Location} {name : String} (hplain : Plain (parent ++ [name]))
    (bytes : ByteArray) : writeDurably (toPath (parent ++ [name])) bytes =
      (forPath (parentText (toPath (parent ++ [name]))) (Disk.ensureDirectory (toPath parent)) >>= fun _ =>
        forPath (toPath (parent ++ [name])) (tryCatch (settle (toPath (parent ++ [name])) bytes) fun e => do
          Disk.quietly (Disk.removeFile (toPath (beside (parent ++ [name]))))
          throw e)) := by
  rw [writeDurably, parent?_toPath hplain, tempPath_toPath (by simp)]

/-- Whatever comes of writing a single file, it works on that file and on what waits beside it. -/
theorem confined_writeDurably (hbase : isAbsolute base = true) (hplain : loc.Plain) (hne : loc ≠ [])
    (bytes : ByteArray) :
    Disk.Confined base (Touches [loc]) (·.Above loc) (writeDurably (toPath loc) bytes) := by
  refine (confined_writeDurably_of hbase bytes ?_).mono
    (fun _ => (atPath_toPath_iff hplain hne).1) fun _ => id
  obtain ⟨parent, name, rfl⟩ := (List.eq_nil_or_concat' loc).resolve_left hne
  intro path hpath
  rw [parent?_toPath hplain] at hpath
  obtain rfl := Option.some.inj hpath
  exact (Disk.confined_ensureDirectory_toPath hbase
    (hplain.of_isPrefix (List.prefix_append parent [name]))).mono (fun _ => id)
    fun _ hway => above_append_singleton.2 hway

/-- A single file is written when nothing is in its way. -/
theorem writeDurably_of_free (hreliable : d.Reliable) (habsolute : isAbsolute d.base = true)
    (hplain : loc.Plain) (hne : loc ≠ []) (hfree : Free d.tree [loc]) (bytes : ByteArray) :
    ∃ d', writeDurably (toPath loc) bytes d = (.ok (), d') := by
  have hmem : loc ∈ [loc] := List.mem_singleton_self loc
  have hstorable := hfree.storable loc hmem
  have hopen : d.tree.Open (beside loc) := by
    intro above hroot habove
    exact hfree.reachable loc hmem above hroot ((above_beside_iff hne).1 habove)
  obtain ⟨hdir, hdirBeside⟩ := hfree.takeable loc hmem
  obtain ⟨hplace, -, -⟩ := hfree.apart loc hmem loc hmem
  -- the directory is made and the file written beside its place
  obtain ⟨d₂, hwritten⟩ := writeBeside_of_open hreliable habsolute hplain hne hstorable
    (hfree.reachable loc hmem) hdirBeside bytes
  obtain ⟨hgrows, hloose⟩ := writeBeside_keeps habsolute hplain hne hwritten
  have hreliable₂ := hgrows.reliable hreliable
  have hloose₂ : Loose d₂ loc := hloose loc hplain hne fun _ _ => ⟨hstorable, hopen⟩
  have hthere : d₂.tree.read? (beside loc) = some bytes := by
    obtain ⟨d₁, -, -, -, ⟨-, e, hfailed⟩ | ⟨content, -, -, hcontent, hfind⟩⟩ :=
      writeBeside_spec habsolute hplain hne hwritten
    · cases hfailed
    · rw [FileTree.read?_eq, hfind, if_pos rfl, hcontent rfl]
      rfl
  have hdir₂ : d₂.tree.isDir loc = false := by
    refine hgrows.tree.isDir_eq_false ?_ (fun _ _ hbelow habove => habove.trans_isPrefix hbelow.1)
      hplace.symm (fun habove => habove.2 rfl) hdir
    rintro _ above rfl habove
    exact (above_beside_iff hne).1 habove
  -- it reaches the device and takes its place
  have hlocate : d₂.locate (toPath (beside loc)) = .ok (beside loc) := by
    obtain ⟨-, hopen₂⟩ := hloose₂ bytes hthere
    exact Disk.locate_of_open (plain_beside hplain hne) hstorable hopen₂ hthere
  have hsync : Disk.sync (toPath (beside loc)) d₂ = (.ok (), d₂.after d₂.tree) :=
    Disk.step_eq (hreliable₂ d₂.steps) hlocate rfl
  have hwaits : Waits (d₂.after d₂.tree) loc := ⟨⟨bytes, hthere⟩, hloose₂⟩
  have hreliable₃ : (d₂.after d₂.tree).Reliable := hreliable₂
  obtain ⟨d₃, hrename⟩ := rename_of_waits hreliable₃ hplain hne hwaits hdir₂
  rw [tempPath_toPath hne] at hrename
  obtain ⟨parent, name, rfl⟩ := (List.eq_nil_or_concat' loc).resolve_left hne
  rw [writeBeside_append hplain] at hwritten
  obtain ⟨u, d₁, hensure, hwrite⟩ := Work.bind_eq_ok.1 hwritten
  rw [← tempPath_toPath hne] at hwrite hsync hrename
  obtain ⟨d₄, hsettle⟩ := exists_settle hwrite hsync hrename
  rw [writeDurably_append hplain]
  exact ⟨d₄, Work.bind_eq_ok.2 ⟨u, d₁, forPath_eq_ok.2 hensure,
    forPath_eq_ok.2 (Work.tryCatch_eq_ok.2 (.inl hsettle))⟩⟩

end Output

end Bindery
