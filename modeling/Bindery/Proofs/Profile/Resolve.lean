import Bindery.Profile.Basic

/-!
# Resolving a profile again

A profile has a value for every setting that its mode reads, so the layer made from it hides whatever
lies below, the built-in settings included. What the layer does not carry are the capabilities: they
are worked out again from the settings and the environment.

* `Profile.ofLayer_overlay_toLayer` : a profile on top of any layer comes to itself, but for its
  capabilities.
* `Profile.resolve_toLayer_eq_self_iff` : so it is resolved to itself exactly when its capabilities are
  those that its settings bring about.
* `Profile.resolve_resolve` : which is so for every profile that layers come to.
-/

namespace Bindery

/-! ## Layers that set everything, or nothing -/

section Fields

variable {α : Type} {merge : α → α → α}

@[simp] theorem pick_some (lower : Option α) (a : α) : pick lower (some a) = some a := rfl

@[simp] theorem pick_none (lower : Option α) : pick lower none = lower := rfl

@[simp] theorem mergeSections_none (lower : Option α) : mergeSections merge lower none = lower := by
  cases lower <;> rfl

/-- A section that hides every other one hides what is below it. -/
theorem mergeSections_some {upper : α} (h : ∀ lower, merge lower upper = upper)
    (lower : Option α) : mergeSections merge lower (some upper) = some upper := by
  cases lower with
  | none => rfl
  | some a => exact congrArg some (h a)

end Fields

/-- A layer that sets nothing changes nothing. -/
theorem Layer.overlay_empty (l : Layer) : l.overlay .empty = l := by
  simp [overlay, empty]

namespace Profile

/-! ## A profile as a layer -/

/-- Whether scripts are made smaller. In development only the capabilities tell. -/
def minimizes (p : Profile) : Bool :=
  match p.settings with
  | .production s => s.minimize
  | .development _ => p.has .minify

/-- The capabilities that the settings of a profile bring about. -/
def derived (p : Profile) (flags : EnvFlags) : List Capability :=
  deriveCapabilities p.settings p.rules p.minimizes flags

/-- A profile on top of any layer comes to itself, with the capabilities that its settings bring
about. -/
theorem ofLayer_overlay_toLayer (l : Layer) (p : Profile) (flags : EnvFlags) :
    ofLayer (l.overlay p.toLayer) p.mode flags = { p with capabilities := p.derived flags } := by
  obtain ⟨root, entries, extensions, output, rules, assets, engines, performance, timeout,
    capabilities, settings⟩ := p
  -- the sections are merged field by field, and the profile sets each field of those that it has
  have hperformance : ∀ lower : PerformanceLayer, lower.overlay
      { hints := some performance.hints
        maxAssetSize := some performance.maxAssetSize
        maxEntrypointSize := some performance.maxEntrypointSize } = _ := fun _ => rfl
  cases settings with
  | production s =>
    have hsplit : ∀ lower : SplitLayer, lower.overlay
        { minSize := some s.split.minSize, groups := some s.split.groups } = _ := fun _ => rfl
    simp [ofLayer, Layer.overlay, toLayer, Profile.mode, modeSettings, derived, minimizes,
      Profile.sourceMap, mergeSections_some hperformance, mergeSections_some hsplit]
  | development d =>
    have hserver : ∀ lower : ServerLayer, lower.overlay
        { host := some d.server.host
          port := some d.server.port
          hot := some d.server.hot
          allowedHosts := some d.server.allowedHosts
          debounceMs := some d.server.debounceMs
          fullReloadPatterns := some d.server.fullReloadPatterns } = _ := fun _ => rfl
    simp [ofLayer, Layer.overlay, toLayer, Profile.mode, modeSettings, derived, minimizes,
      Profile.sourceMap, mergeSections_some hperformance, mergeSections_some hserver]

/-- A profile is resolved to itself exactly when its capabilities are those that its settings bring
about. -/
theorem resolve_toLayer_eq_self_iff (p : Profile) (flags : EnvFlags) :
    resolve p.toLayer .empty p.mode flags = p ↔ p.capabilities = p.derived flags := by
  rw [resolve, Layer.overlay_empty, ofLayer_overlay_toLayer]
  constructor
  · intro h
    exact (congrArg Profile.capabilities h).symm
  · intro h
    rw [← h]

/-! ## Profiles of layers -/

theorem mode_ofLayer (l : Layer) (mode : Mode) (flags : EnvFlags) :
    (ofLayer l mode flags).mode = mode := by
  cases mode <;> rfl

/-- Making scripts smaller is a capability exactly when it is asked for. -/
theorem contains_minify_deriveCapabilities (settings : ModeSettings) (rules : List Rule)
    (minimize : Bool) (flags : EnvFlags) :
    (deriveCapabilities settings rules minimize flags).contains .minify = minimize := by
  rw [Bool.eq_iff_iff, List.contains_iff_mem]
  cases settings with
  | production s => simp [deriveCapabilities]
  | development d => simp [deriveCapabilities]

theorem minimizes_ofLayer (l : Layer) (mode : Mode) (flags : EnvFlags) :
    (ofLayer l mode flags).minimizes = l.minimize.getD false := by
  cases mode with
  | production => rfl
  | development =>
    exact contains_minify_deriveCapabilities (modeSettings l .development) (l.rules.getD [])
      (l.minimize.getD false) flags

/-- What a layer comes to has the capabilities that its settings bring about. -/
theorem capabilities_ofLayer (l : Layer) (mode : Mode) (flags : EnvFlags) :
    (ofLayer l mode flags).capabilities = (ofLayer l mode flags).derived flags := by
  rw [derived, minimizes_ofLayer]
  rfl

/-- Resolving a resolved profile again changes nothing: for all layers, in both modes and whatever
the environment says. -/
theorem resolve_resolve (base overrides : Layer) (mode : Mode) (flags : EnvFlags) :
    resolve (resolve base overrides mode flags).toLayer .empty mode flags =
      resolve base overrides mode flags := by
  have hmode : (resolve base overrides mode flags).mode = mode := mode_ofLayer _ mode flags
  have hself := (resolve_toLayer_eq_self_iff (resolve base overrides mode flags) flags).2
    (capabilities_ofLayer _ mode flags)
  rwa [hmode] at hself

end Profile

end Bindery
