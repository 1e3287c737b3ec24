import TensorEngine.Proofs.Instance.Specializing

/-!
# Standards that instances are held to

Whatever is asked of the implementations of a node, an instance that is prepared for the extents of
a run meets it, as long as new candidates meet it, finalizing keeps it, and the cache holds nothing
else.  How an instance comes by its form plays no part: it may keep the form that it has, take one
from the cache, make one anew, or change over to another candidate.
-/

namespace TensorEngine

variable {ι ω : Type} {graph : Graph} {node : Node} {declared : List Layout}
  {shapes : ConcreteShapes} {workspace : Workspace ι ω} {inst inst' : PrimitiveInstance ι}

/-! ## Standards -/

/-- What is asked of the implementations of nodes. -/
structure Standard (ι ω : Type) where
  /-- Whether there may be a cache. -/
  enabled : Prop
  environment : ω → Prop
  bound : Node → BoundImplementation ι → Prop
  /-- What is asked of a form that runs a node on some extents. -/
  form : Node → ConcreteShapes → FinalizedImplementation ι → Prop
  /-- What is asked of a form in the cache. -/
  cached : CacheKey → FinalizedImplementation ι → Prop

namespace Standard

variable {standard : Standard ι ω}

/-- Environment and cache meet the standard. -/
structure Kept (standard : Standard ι ω) (workspace : Workspace ι ω) : Prop where
  enabled : workspace.cache.isSome = true → standard.enabled
  environment : standard.environment workspace.environment
  keeps : workspace.Keeps standard.cached

/-- A new cache is empty. -/
theorem kept_ofCapacity? {capacity : Nat} {session : Session ω}
    (henabled : capacity ≠ 0 → standard.enabled) (henv : standard.environment session.environment) :
    standard.Kept ⟨ImplementationCache.ofCapacity? capacity, session⟩ := by
  refine ⟨fun hsome ↦ henabled fun hzero ↦ ?_, henv, Workspace.keeps_ofCapacity? _ _⟩
  rw [hzero] at hsome
  cases hsome

theorem Kept.withEnvironment (h : standard.Kept workspace) {env : ω}
    (henv : standard.environment env) : standard.Kept (workspace.withEnvironment env) :=
  ⟨h.enabled, henv, h.keeps⟩

/-- What is added to the cache has to be up to the standard. -/
theorem Kept.adds (h : standard.Kept workspace) {workspace' : Workspace ι ω}
    {new : CacheKey → FinalizedImplementation ι → Prop} (hadds : workspace.Adds workspace' new)
    (henv : standard.environment workspace'.environment)
    (hnew : standard.enabled → ∀ key entry, new key entry → standard.cached key entry) :
    standard.Kept workspace' :=
  ⟨fun hsome ↦ h.enabled (hadds.isSome_eq ▸ hsome), henv,
    hadds.keeps h.keeps fun hsome ↦ hnew (h.enabled hsome)⟩

/-- The instance is ready, with a form that runs on the extents. -/
structure Ready (standard : Standard ι ω) (shapes : ConcreteShapes)
    (inst : PrimitiveInstance ι) : Prop where
  state_eq : inst.state = .ready
  entry : ∃ entry : FinalizedImplementation ι, inst.bound = some entry.bound ∧
    inst.form = some entry.form ∧ standard.form inst.node shapes entry

/-- The instance can be prepared: it is bound, or ready with a form that runs on its extents. -/
inductive Usable (standard : Standard ι ω) (inst : PrimitiveInstance ι) : Prop
  | bound {bound : BoundImplementation ι} (hstate : inst.state = .bound)
      (hbound : inst.bound = some bound) (hmeets : standard.bound inst.node bound)
  | ready {entry : FinalizedImplementation ι} (hstate : inst.state = .ready)
      (hbound : inst.bound = some entry.bound) (hform : inst.form = some entry.form)
      (hmeets : standard.bound inst.node entry.bound)
      (hruns : standard.form inst.node entry.form.shapes entry)

theorem Usable.exists_bound (h : standard.Usable inst) :
    ∃ bound, inst.bound = some bound ∧ standard.bound inst.node bound := by
  cases h with
  | bound _ hbound hmeets => exact ⟨_, hbound, hmeets⟩
  | ready _ hbound _ hmeets => exact ⟨_, hbound, hmeets⟩

theorem Usable.state_eq (h : standard.Usable inst) : inst.state = .bound ∨ inst.state = .ready := by
  cases h with
  | bound hstate => exact .inl hstate
  | ready hstate => exact .inr hstate

/-- What a preparation answers: the standard is kept, and the instance is ready with a form that
runs on the extents, or the program is poisoned. -/
structure Prepares {α : Type} (standard : Standard ι ω) (shapes : ConcreteShapes)
    (inst : PrimitiveInstance ι)
    (answer : Except RuntimeError α × PrimitiveInstance ι × Workspace ι ω) : Prop where
  kept : standard.Kept answer.2.2
  same : inst.SamePlace answer.2.1
  ready : ∀ a, answer.1 = .ok a → standard.Ready shapes answer.2.1
  poisons : ∀ error, answer.1 = .error error → error.poisonsProgram = true

variable [Implementation ι ω]

/-- The implementations at hand are up to the standard for a node: candidates meet it, and
finalizing keeps it; forms for the node may be kept in the cache, and what is there may be used.  A
form that ran on some extents may be used again. -/
structure Upheld (standard : Standard ι ω) (registry : Registry ι) (device : DeviceCaps)
    (node : Node) (declared : List Layout) (shapes : ConcreteShapes) : Prop where
  candidate : ∀ {selection : Selection} {descriptor : Descriptor ι},
    registry.Selects node declared device selection descriptor →
    standard.bound node ⟨selection.descriptor, descriptor.instantiate node,
      selection.requiresConversion⟩
  finalized : ∀ {bound : BoundImplementation ι} {env : ω}, standard.bound node bound →
    standard.environment env →
    let answer := Implementation.finalize bound.implementation shapes node.op env
    standard.environment answer.2.2 ∧ ∀ form, answer.1 = .ok form →
      standard.form node shapes ⟨{ bound with implementation := answer.2.1 }, form⟩
  keep : ∀ {entry : FinalizedImplementation ι}, standard.enabled →
    standard.form node shapes entry →
    standard.cached (node.signature declared, entry.form.shapes) entry
  hit : ∀ {entry : FinalizedImplementation ι}, standard.enabled →
    standard.cached (node.signature declared, shapes) entry → standard.form node shapes entry
  again : ∀ {entry : FinalizedImplementation ι}, standard.form node shapes entry →
    standard.bound node entry.bound ∧ standard.form node entry.form.shapes entry

variable {registry : Registry ι} {device : DeviceCaps}

/-- An instance that is ready for some extents can be prepared for others. -/
theorem Ready.usable (h : standard.Ready shapes inst)
    (hupheld : standard.Upheld registry device inst.node declared shapes) :
    standard.Usable inst := by
  obtain ⟨hstate, entry, hbound, hform, hruns⟩ := h
  obtain ⟨hmeets, hagain⟩ := hupheld.again hruns
  exact .ready hstate hbound hform hmeets hagain

/-- Whatever may be finalized for an instance is up to the standard. -/
theorem Upheld.attempts
    (h : standard.Upheld registry device inst.node inst.declaredInputs shapes)
    {bound : BoundImplementation ι} (hbound : inst.bound = some bound)
    (hmeets : standard.bound inst.node bound) :
    ∀ other, inst.Attempts registry device shapes other → standard.bound inst.node other := by
  rintro other ⟨hother | hother, _⟩
  · obtain rfl := Option.some.inj (hbound.symm.trans hother)
    exact hmeets
  · cases hother with
    | mk hselects => exact h.candidate hselects

/-- However an instance changes to other extents, it ends up with a form that is up to the
standard. -/
theorem Upheld.specializes {α : Type}
    (h : standard.Upheld registry device inst.node inst.declaredInputs shapes)
    (hkept : standard.Kept workspace) {bound : BoundImplementation ι}
    (hbound : inst.bound = some bound) (hmeets : standard.bound inst.node bound)
    {answer : Except RuntimeError α × PrimitiveInstance ι × Workspace ι ω}
    (hspecializes : inst.Specializes registry device shapes workspace answer) :
    standard.Prepares shapes inst answer := by
  have hattempts := h.attempts hbound hmeets
  have htries : ∀ {env : ω},
      Tries (inst.Attempts registry device shapes) inst.node.op shapes workspace.environment env →
      standard.environment env := fun htries ↦ htries.preserves
    (fun bound env hattempt henv ↦ (h.finalized (hattempts bound hattempt) henv).1)
    hkept.environment
  cases hspecializes with
  | @cached a inst' workspace' cache entry hcache hmem henv hadds hsame hstate hbound' hform =>
    have henabled := hkept.enabled (by rw [hcache]; rfl)
    have hruns := h.hit henabled (hkept.keeps cache hcache _ _ hmem)
    rw [← hsame.node_eq] at hruns
    exact ⟨hkept.adds hadds (henv ▸ hkept.environment) nofun, hsame,
      fun _ _ ↦ ⟨hstate, entry, hbound', hform, hruns⟩, nofun⟩
  | changed hchanges =>
    cases hchanges with
    | @made a inst' workspace' entry hmakes hadds hsame hstate hbound' hform =>
      obtain ⟨bound, before, hattempt, htried, hfinalize, hentry⟩ := hmakes.made
      have hfinalized := h.finalized (hattempts bound hattempt) (htries htried)
      rw [hfinalize] at hfinalized
      have hruns := hfinalized.2 entry.form rfl
      rw [← hentry] at hruns
      refine ⟨hkept.adds hadds hfinalized.1 ?_, hsame, fun _ _ ↦
        ⟨hstate, entry, hbound', hform, hsame.node_eq.symm ▸ hruns⟩, nofun⟩
      rintro henabled key new ⟨rfl, rfl⟩
      exact h.keep henabled hruns
    | failed htried hadds hsame _ hwhy =>
      exact ⟨hkept.adds hadds (htries htried) nofun, hsame, nofun, fun _ herror ↦
        Except.error.inj herror ▸ hwhy.poisonsProgram⟩

/-- An instance that is prepared for the extents of a run is ready with a form that is up to the
standard. -/
theorem Upheld.prepare
    (h : standard.Upheld registry device inst.node inst.declaredInputs shapes)
    (husable : standard.Usable inst) (hkept : standard.Kept workspace) :
    standard.Prepares shapes inst (inst.prepare shapes ⟨registry, device⟩ workspace) := by
  rcases inst.prepare_cases registry device shapes workspace husable.state_eq with
    ⟨hready, hshapes, hanswer⟩ | hspecializes
  · rw [hanswer]
    cases husable with
    | bound hstate =>
      rw [hready] at hstate
      cases hstate
    | @ready entry hstate hbound hform hmeets hruns =>
      refine ⟨hkept, .refl inst, fun _ _ ↦ ⟨hstate, entry, hbound, hform, ?_⟩, nofun⟩
      rw [PrimitiveInstance.needsReshape, hform, Option.map_some, decide_eq_false_iff_not, not_not,
        Option.some.injEq] at hshapes
      exact hshapes ▸ hruns
  · obtain ⟨bound, hbound, hmeets⟩ := husable.exists_bound
    exact h.specializes hkept hbound hmeets hspecializes

end Standard

end TensorEngine
