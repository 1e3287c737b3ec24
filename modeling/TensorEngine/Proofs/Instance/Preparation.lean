import TensorEngine.Proofs.Instance.Agreement
import TensorEngine.Proofs.Instance.Fallback
import TensorEngine.Proofs.Instance.Standards

/-!
# Preparing an instance

Whatever an instance went through before, once it is prepared for the extents of a run, the
implementation that it holds serves these extents.  A bound implementation is kept or exchanged,
forms come from the cache or are made anew; what carries the argument is that bound
implementations belong to their node, that cached forms serve every node with the signature they
are kept under, and that the reference implementation can always be taken.
-/

namespace TensorEngine

open CatalogueImplementation

/-- The registry has all reference implementations, and otherwise only implementations that
compute what they compute. -/
structure Registry.Exact (registry : Registry CatalogueImplementation) : Prop where
  references : ∀ descriptor ∈ referenceDescriptors, descriptor ∈ registry.descriptors
  exact : ∀ descriptor ∈ registry.descriptors, descriptor ∈ exactDescriptors

section

variable {graph : Graph} {registry : Registry CatalogueImplementation} {device : DeviceCaps}
  {node : Node} {p : Nat} {declared : List Layout} {shapes : ConcreteShapes} {dims : Dims}
  {env : Environment}

/-! ## The reference implementation -/

/-- Only reference implementations are of the reference family. -/
theorem CatalogueImplementation.Conforms.exists_reference {impl : CatalogueImplementation}
    (h : Conforms node impl) (hbackend : impl.backend = .reference) :
    ∃ reference, impl = .reference reference ∧ reference.kernel = .ofOp node.op := by
  cases impl with
  | reference reference => exact ⟨reference, rfl, h⟩
  | parallel | limited => cases hbackend
  | gemm | failing | scripted => exact h.elim

/-! ## Invariants -/

/-- A bound implementation belongs to its node and comes from the descriptor that it names. -/
structure BoundImplementation.Genuine (registry : Registry CatalogueImplementation) (node : Node)
    (bound : BoundImplementation CatalogueImplementation) : Prop where
  conforms : Conforms node bound.implementation
  origin : ∃ descriptor, registry.descriptor? bound.descriptor = some descriptor ∧
    descriptor.backend = bound.implementation.backend

/-- What is genuine and bound under the reference descriptor runs the reference kernel. -/
theorem BoundImplementation.Genuine.grounded {bound : BoundImplementation CatalogueImplementation}
    (h : bound.Genuine registry node) : bound.Grounded registry node := by
  intro hreference
  obtain ⟨descriptor, hdescriptor, hbackend⟩ := h.origin
  obtain rfl := Option.some.inj (hdescriptor.symm.trans hreference)
  exact h.conforms.exists_reference hbackend.symm

/-- A finalized implementation serves the extents it was made for. -/
structure FinalizedImplementation.Sound (registry : Registry CatalogueImplementation) (node : Node)
    (declared : List Layout) (shapes : ConcreteShapes)
    (entry : FinalizedImplementation CatalogueImplementation) : Prop where
  genuine : entry.bound.Genuine registry node
  shapes_eq : entry.form.shapes = shapes
  serves : Serves node declared shapes entry.bound.implementation

/-- What a form serves depends on the operation and the declared layouts alone. -/
theorem FinalizedImplementation.Sound.congr {other : Node}
    {entry : FinalizedImplementation CatalogueImplementation}
    (h : entry.Sound registry node declared shapes) (hop : node.op = other.op)
    (hout : node.outputs = other.outputs) : entry.Sound registry other declared shapes :=
  have hserves := h.serves.congr hop hout
  ⟨⟨hserves.conforms, h.genuine.origin⟩, h.shapes_eq, hserves⟩

/-- No run by a shared plan breaks down, or no implementation uses any. -/
def Registry.Trusts (registry : Registry CatalogueImplementation) (env : Environment) : Prop :=
  (∀ descriptor ∈ registry.descriptors, descriptor.backend = .reference) ∨ env.plans.Runnable

/-- Shared plans can be trusted, and cached forms serve every node with the signature they are kept
under. -/
structure Workspace.Sound (graph : Graph) (registry : Registry CatalogueImplementation)
    (workspace : Workspace CatalogueImplementation Environment) : Prop where
  trusts : registry.Trusts workspace.environment
  entries_sound : ∀ cache, workspace.cache = some cache → graph.SignaturesFaithful ∧
    ∀ key entry, (key, entry) ∈ cache.entries → ∀ node ∈ graph.nodes,
      node.signature (graph.inputLayouts node) = key.1 →
        entry.Sound registry node (graph.inputLayouts node) key.2

namespace PrimitiveInstance

variable {inst inst' : PrimitiveInstance CatalogueImplementation}

/-- The instance is ready for some extents. -/
structure ReadyFor (registry : Registry CatalogueImplementation) (shapes : ConcreteShapes)
    (inst : PrimitiveInstance CatalogueImplementation) : Prop where
  state_eq : inst.state = .ready
  entry : ∃ entry : FinalizedImplementation CatalogueImplementation,
    inst.bound = some entry.bound ∧ inst.form = some entry.form ∧
      entry.Sound registry inst.node inst.declaredInputs shapes

/-- The instance can be prepared: it is bound, or ready for some extents. -/
inductive Usable (registry : Registry CatalogueImplementation)
    (inst : PrimitiveInstance CatalogueImplementation) : Prop
  | bound {bound : BoundImplementation CatalogueImplementation} (hstate : inst.state = .bound)
      (hbound : inst.bound = some bound) (hgenuine : bound.Genuine registry inst.node)
  | ready {shapes : ConcreteShapes} (hready : inst.ReadyFor registry shapes)

/-- What a preparation answers: a sound workspace and, when it succeeds, an instance of the same
node that is ready for the extents. -/
structure Prepares {α : Type} (graph : Graph) (registry : Registry CatalogueImplementation)
    (shapes : ConcreteShapes) (inst : PrimitiveInstance CatalogueImplementation)
    (answer : Except RuntimeError α × PrimitiveInstance CatalogueImplementation ×
      Workspace CatalogueImplementation Environment) : Prop where
  sound : answer.2.2.Sound graph registry
  same : SamePlace inst answer.2.1
  ready : ∀ a, answer.1 = .ok a → answer.2.1.ReadyFor registry shapes

end PrimitiveInstance

/-! ## The cache -/

namespace Workspace

variable {workspace workspace' : Workspace CatalogueImplementation Environment}

theorem Sound.withEnvironment (h : workspace.Sound graph registry)
    (henv : registry.Trusts env) : (workspace.withEnvironment env).Sound graph registry :=
  ⟨henv, h.entries_sound⟩

/-- A form that serves a node may be kept under the signature of the node. -/
theorem Sound.adds (h : workspace.Sound graph registry)
    {new : CacheKey → FinalizedImplementation CatalogueImplementation → Prop}
    (hadds : workspace.Adds workspace' new) (henv : registry.Trusts workspace'.environment)
    (hnew : ∀ key entry, new key entry → ∃ node ∈ graph.nodes,
      key.1 = node.signature (graph.inputLayouts node) ∧
        entry.Sound registry node (graph.inputLayouts node) key.2) :
    workspace'.Sound graph registry :=
  ⟨henv, hadds.keepsFor h.entries_sound (fun _ _ _ ↦ id) hnew
    fun hentry hop hinputs hout ↦ hinputs ▸ hentry.congr hop hout⟩

end Workspace

/-! ## Changing over to another implementation -/

namespace PrimitiveInstance

variable {inst inst' : PrimitiveInstance CatalogueImplementation}
  {workspace : Workspace CatalogueImplementation Environment}
  {bound : BoundImplementation CatalogueImplementation}

theorem Usable.exists_bound (h : inst.Usable registry) : ∃ bound, inst.bound = some bound ∧
    bound.Genuine registry inst.node := by
  cases h with
  | bound _ hbound hgenuine => exact ⟨_, hbound, hgenuine⟩
  | ready hready =>
    obtain ⟨entry, hbound, _, hsound⟩ := hready.entry
    exact ⟨entry.bound, hbound, hsound.genuine⟩

theorem Usable.state_eq (h : inst.Usable registry) :
    inst.state = .bound ∨ inst.state = .ready := by
  cases h with
  | bound hstate => exact .inl hstate
  | ready hready => exact .inr hready.state_eq

/-- Candidates belong to their nodes. -/
theorem genuine_of_offers (hexact : registry.Exact) {node : Node} {declared : List Layout}
    (h : registry.Offers node declared device bound) : bound.Genuine registry node := by
  cases h with
  | mk hselects =>
    have hdescriptor := hselects.descriptor_eq
    obtain ⟨hconforms, hbackend⟩ :=
      conforms_instantiate node (hexact.exact _ (List.mem_of_getElem? hdescriptor))
    exact ⟨hconforms, _, hdescriptor, hbackend.symm⟩

/-- Whatever may be finalized for an instance belongs to its node. -/
theorem genuine_of_attempts (hexact : registry.Exact) (hbound : inst.bound = some bound)
    (hgenuine : bound.Genuine registry inst.node)
    {other : BoundImplementation CatalogueImplementation}
    (h : inst.Attempts registry device shapes other) : other.Genuine registry inst.node := by
  obtain ⟨hother | hother, _⟩ := h
  · obtain rfl := Option.some.inj (hbound.symm.trans hother)
    exact hgenuine
  · exact genuine_of_offers hexact hother

/-- Finalizing what belongs to the node and takes the extents leads to a form that serves them. -/
theorem finalizes_of_genuine (hgenuine : bound.Genuine registry inst.node)
    (htakes : inst.Takes shapes bound) (htrusts : registry.Trusts env)
    (hin : shapes.inputs.length = inst.declaredInputs.length)
    (hout : shapes.outputs.length = inst.node.outputs.length) :
    let answer := Implementation.finalize bound.implementation shapes inst.node.op env
    registry.Trusts answer.2.2 ∧ ∀ form, answer.1 = .ok form →
      FinalizedImplementation.Sound registry inst.node inst.declaredInputs shapes
        ⟨{ bound with implementation := answer.2.1 }, form⟩ := by
  obtain ⟨descriptor, hdescriptor, hsame⟩ := hgenuine.origin
  have hfinalizes := finalizes env hgenuine.conforms
    (htrusts.imp_left fun h ↦
      hsame.symm.trans (h descriptor (List.mem_of_getElem? hdescriptor))) hin hout htakes
  refine ⟨htrusts.imp_right hfinalizes.runnable, fun form hform ↦ ?_⟩
  obtain ⟨hshapes, hserves⟩ := hfinalizes.serves form hform
  exact ⟨⟨hfinalizes.conforms, descriptor, hdescriptor,
    hsame.trans hfinalizes.backend_eq.symm⟩, hshapes, hserves⟩

/-- However an instance changes to other extents, it ends up ready for them. -/
theorem specializes_spec {α : Type} (hexact : registry.Exact) (hof : inst.Of graph)
    (hbound : inst.bound = some bound) (hgenuine : bound.Genuine registry inst.node)
    (hworkspace : workspace.Sound graph registry)
    (hin : shapes.inputs.length = inst.declaredInputs.length)
    (hout : shapes.outputs.length = inst.node.outputs.length)
    {answer : Except RuntimeError α × PrimitiveInstance CatalogueImplementation ×
      Workspace CatalogueImplementation Environment}
    (h : inst.Specializes registry device shapes workspace answer) :
    Prepares graph registry shapes inst answer := by
  have hfinalizes := fun other env
      (hattempt : inst.Attempts registry device shapes other) (htrusts : registry.Trusts env) ↦
    finalizes_of_genuine (genuine_of_attempts hexact hbound hgenuine hattempt) hattempt.2 htrusts
      hin hout
  have htries : ∀ {env : Environment},
      Tries (inst.Attempts registry device shapes) inst.node.op shapes workspace.environment env →
      registry.Trusts env := fun htries ↦ htries.preserves
    (fun other env hattempt htrusts ↦ (hfinalizes other env hattempt htrusts).1)
    hworkspace.trusts
  cases h with
  | @cached a inst' workspace' cache entry hcache hmem henv hadds hsame hstate hbound' hform =>
    have hentry := (hworkspace.entries_sound cache hcache).2 _ entry hmem inst.node hof.node_mem
      (by rw [hof.signature_eq])
    rw [← hof.declared_eq, ← hsame.node_eq, ← hsame.declared_eq] at hentry
    exact ⟨hworkspace.adds hadds (henv ▸ hworkspace.trusts) fun _ _ ↦ False.elim, hsame,
      fun _ _ ↦ ⟨hstate, entry, hbound', hform, hentry⟩⟩
  | changed hchanges =>
    cases hchanges with
    | @made a inst' workspace' entry hmakes hadds hsame hstate hbound' hform =>
      obtain ⟨other, before, hattempt, htried, hfinalize, hkept⟩ := hmakes.made
      obtain ⟨htrusts, hserves⟩ := hfinalizes other before hattempt (htries htried)
      rw [hfinalize] at htrusts hserves
      have hentry := hserves entry.form rfl
      rw [← hkept] at hentry
      have hready : inst'.ReadyFor registry shapes := by
        refine ⟨hstate, entry, hbound', hform, ?_⟩
        rw [hsame.node_eq, hsame.declared_eq]
        exact hentry
      refine ⟨hworkspace.adds hadds htrusts ?_, hsame, fun _ _ ↦ hready⟩
      rintro key new ⟨rfl, rfl⟩
      refine ⟨inst.node, hof.node_mem, by rw [hof.signature_eq], ?_⟩
      rw [hentry.shapes_eq, ← hof.declared_eq]
      exact hentry
    | failed htried hadds hsame =>
      exact ⟨hworkspace.adds hadds (htries htried) fun _ _ ↦ False.elim, hsame, nofun⟩

/-- Preparing an instance for the extents of a run makes it ready for them, if it succeeds. -/
theorem prepare_spec (device : DeviceCaps) (hexact : registry.Exact) (hof : inst.Of graph)
    (husable : inst.Usable registry) (hworkspace : workspace.Sound graph registry)
    (hin : shapes.inputs.length = inst.declaredInputs.length)
    (hout : shapes.outputs.length = inst.node.outputs.length) :
    Prepares graph registry shapes inst (inst.prepare shapes ⟨registry, device⟩ workspace) := by
  rcases inst.prepare_cases registry device shapes workspace husable.state_eq with
    ⟨hstate, hneeds, hanswer⟩ | hspecializes
  · rw [hanswer]
    cases husable with
    | bound hbound =>
      rw [hstate] at hbound
      cases hbound
    | ready hready =>
      obtain ⟨entry, hbound, hform, hentry⟩ := hready.entry
      refine ⟨hworkspace, .refl inst, fun _ _ ↦ ⟨hstate, entry, hbound, hform, ?_⟩⟩
      rw [needsReshape, hform, Option.map_some, hentry.shapes_eq, decide_eq_false_iff_not,
        not_not, Option.some.injEq] at hneeds
      exact hneeds ▸ hentry
  · obtain ⟨bound, hbound, hgenuine⟩ := husable.exists_bound
    exact specializes_spec hexact hof hbound hgenuine hworkspace hin hout hspecializes

/-- For the extents of every run, an instance can be prepared. -/
theorem exists_ok_of_usable
    (workspace : Workspace CatalogueImplementation Environment) (hexact : registry.Exact)
    (hdevice : device.enables .reference = true) (hof : inst.Of graph)
    (husable : inst.Usable registry)
    (hderives : inst.node.Derives inst.declaredInputs shapes dims) :
    ∃ transition, (inst.prepare shapes ⟨registry, device⟩ workspace).1 = .ok transition := by
  obtain ⟨bound, hbound, hgenuine⟩ := husable.exists_bound
  exact exists_ok_of_prepare hexact.references hdevice hof hderives husable.state_eq hbound
    hgenuine.grounded

end PrimitiveInstance

end

end TensorEngine
