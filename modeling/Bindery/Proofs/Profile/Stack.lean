import Bindery.Proofs.Profile.Resolve

/-!
# Stacks of layers

Layers are put on top of each other two at a time, so there are many ways to put up a stack of them.
All of them come to the same layer: an upper setting hides a lower one however many layers lie
between them, and that carries over from single settings to sections and to whole layers.

* `Layer.overlay_assoc`, `Layer.empty_overlay` : layers form a monoid, with the layer that sets nothing
  as its unit.
* `Stack.overlaid_eq_foldl` : a stack comes to what its layers come to one after the other.
* `Profile.resolve_settled` : a section that is there and sets nothing is as good as one that is not
  there.
* `Stack.resolve_stacks` : the profile of two stacks tells the order of their layers only.
-/

namespace Bindery

/-! ## Settings and sections -/

section Fields

variable {α : Type} {merge : α → α → α}

@[simp] theorem none_pick (upper : Option α) : pick none upper = upper := Option.or_none

theorem pick_assoc (a b c : Option α) : pick (pick a b) c = pick a (pick b c) :=
  Option.or_assoc.symm

@[simp] theorem none_mergeSections (upper : Option α) : mergeSections merge none upper = upper := by
  cases upper <;> rfl

theorem mergeSections_assoc (h : ∀ a b c, merge (merge a b) c = merge a (merge b c))
    (a b c : Option α) :
    mergeSections merge (mergeSections merge a b) c =
      mergeSections merge a (mergeSections merge b c) := by
  -- a section that is not there drops out, so only three that are there need the law
  cases a with
  | none => rw [none_mergeSections, none_mergeSections]
  | some a =>
    cases b with
    | none => rw [mergeSections_none, none_mergeSections]
    | some b =>
      cases c with
      | none => rw [mergeSections_none, mergeSections_none]
      | some c => exact congrArg some (h a b c)

/-- Where a section that sets nothing has no effect, it may as well be there. -/
theorem getD_mergeSections {unset : α} (hbelow : ∀ a, merge unset a = a)
    (habove : ∀ a, merge a unset = a) (a b : Option α) :
    some ((mergeSections merge a b).getD unset) =
      mergeSections merge (some (a.getD unset)) (some (b.getD unset)) := by
  show _ = some (merge (a.getD unset) (b.getD unset))
  cases a with
  | none => rw [none_mergeSections, Option.getD_none, hbelow]
  | some a =>
    cases b with
    | none => rw [mergeSections_none, Option.getD_none, habove]
    | some b => rfl

end Fields

namespace SplitLayer

theorem overlay_assoc (a b c : SplitLayer) :
    (a.overlay b).overlay c = a.overlay (b.overlay c) := by
  simp only [overlay, pick_assoc]

theorem unset_overlay (l : SplitLayer) : ({} : SplitLayer).overlay l = l := by
  simp only [overlay, none_pick]

theorem overlay_unset (l : SplitLayer) : l.overlay {} = l := by
  simp only [overlay, pick_none]

end SplitLayer

namespace ServerLayer

theorem overlay_assoc (a b c : ServerLayer) :
    (a.overlay b).overlay c = a.overlay (b.overlay c) := by
  simp only [overlay, pick_assoc]

theorem unset_overlay (l : ServerLayer) : ({} : ServerLayer).overlay l = l := by
  simp only [overlay, none_pick]

theorem overlay_unset (l : ServerLayer) : l.overlay {} = l := by
  simp only [overlay, pick_none]

end ServerLayer

namespace PerformanceLayer

theorem overlay_assoc (a b c : PerformanceLayer) :
    (a.overlay b).overlay c = a.overlay (b.overlay c) := by
  simp only [overlay, pick_assoc]

theorem unset_overlay (l : PerformanceLayer) : ({} : PerformanceLayer).overlay l = l := by
  simp only [overlay, none_pick]

theorem overlay_unset (l : PerformanceLayer) : l.overlay {} = l := by
  simp only [overlay, pick_none]

end PerformanceLayer

/-! ## Layers -/

namespace Layer

/-- Three layers on top of each other come to the same whichever two are put together first. -/
theorem overlay_assoc (a b c : Layer) : (a.overlay b).overlay c = a.overlay (b.overlay c) := by
  simp only [overlay, pick_assoc, mergeSections_assoc SplitLayer.overlay_assoc,
    mergeSections_assoc ServerLayer.overlay_assoc,
    mergeSections_assoc PerformanceLayer.overlay_assoc]

/-- A layer on top of one that sets nothing stays as it is. -/
theorem empty_overlay (l : Layer) : empty.overlay l = l := by
  simp only [overlay, empty, none_pick, none_mergeSections]

/-- The layer with every section there. What was not there sets nothing. -/
def settled (l : Layer) : Layer :=
  { l with
    split := some (l.split.getD {})
    devServer := some (l.devServer.getD {})
    performance := some (l.performance.getD {}) }

theorem settled_settled (l : Layer) : l.settled.settled = l.settled := rfl

/-- Sections that set nothing stay without effect under and over other layers. -/
theorem settled_overlay (a b : Layer) : (a.overlay b).settled = a.settled.overlay b.settled := by
  simp only [settled, overlay,
    getD_mergeSections SplitLayer.unset_overlay SplitLayer.overlay_unset,
    getD_mergeSections ServerLayer.unset_overlay ServerLayer.overlay_unset,
    getD_mergeSections PerformanceLayer.unset_overlay PerformanceLayer.overlay_unset]

end Layer

namespace Profile

/-- Where a section is not there, the profile of a layer is as if it were there and set nothing. -/
theorem ofLayer_settled (l : Layer) (mode : Mode) (flags : EnvFlags) :
    ofLayer l.settled mode flags = ofLayer l mode flags := by
  cases mode <;> rfl

/-- A section that is there and sets nothing is as good as one that is not there, in either of the
layers of a build. -/
theorem resolve_settled (base overrides : Layer) (mode : Mode) (flags : EnvFlags) :
    resolve base.settled overrides.settled mode flags = resolve base overrides mode flags := by
  rw [resolve, resolve, ← ofLayer_settled (((Defaults.layer mode).overlay base).overlay overrides),
    ← ofLayer_settled (((Defaults.layer mode).overlay base.settled).overlay overrides.settled)]
  simp only [Layer.settled_overlay, Layer.settled_settled]

end Profile

/-! ## Stacks -/

/-- Layers that are put on top of each other in some grouping. -/
inductive Stack where
  | empty
  | layer (l : Layer)
  | both (lower upper : Stack)

namespace Stack

/-- The layers of a stack, the lowest one first. -/
def layers : Stack → List Layer
  | empty => []
  | layer l => [l]
  | both lower upper => lower.layers ++ upper.layers

/-- The layer that a stack comes to, put together as it is grouped. -/
def overlaid : Stack → Layer
  | empty => .empty
  | layer l => l
  | both lower upper => lower.overlaid.overlay upper.overlaid

/-- A layer under a stack is under its lowest layer. -/
theorem overlay_overlaid (below : Layer) (s : Stack) :
    below.overlay s.overlaid = s.layers.foldl Layer.overlay below := by
  induction s generalizing below with
  | empty => exact Layer.overlay_empty below
  | layer l => rfl
  | both lower upper ihlower ihupper =>
    calc below.overlay (lower.overlaid.overlay upper.overlaid)
        = (below.overlay lower.overlaid).overlay upper.overlaid :=
          (Layer.overlay_assoc below lower.overlaid upper.overlaid).symm
      _ = upper.layers.foldl Layer.overlay (lower.layers.foldl Layer.overlay below) := by
          rw [ihlower, ihupper]
      _ = (lower.layers ++ upper.layers).foldl Layer.overlay below := List.foldl_append.symm

/-- A stack comes to what its layers come to, put on top of each other from the lowest one on. -/
theorem overlaid_eq_foldl (s : Stack) :
    s.overlaid = s.layers.foldl Layer.overlay .empty := by
  rw [← overlay_overlaid, Layer.empty_overlay]

/-- Layering is a monoid, so a profile tells in which order the layers of its two stacks lie and
nothing of how they are grouped, nor where the one stack ends and the other one begins. -/
theorem resolve_stacks :
    (∀ a b c : Layer, (a.overlay b).overlay c = a.overlay (b.overlay c)) ∧
      (∀ l : Layer, Layer.empty.overlay l = l ∧ l.overlay .empty = l) ∧
      ∀ (base overrides : Stack) (mode : Mode) (flags : EnvFlags),
        Profile.resolve base.overlaid overrides.overlaid mode flags =
          Profile.ofLayer
            ((base.layers ++ overrides.layers).foldl Layer.overlay (Defaults.layer mode))
            mode flags := by
  refine ⟨Layer.overlay_assoc, fun l => ⟨Layer.empty_overlay l, Layer.overlay_empty l⟩, ?_⟩
  intro base overrides mode flags
  rw [Profile.resolve, overlay_overlaid, overlay_overlaid, List.foldl_append]

end Stack

end Bindery
