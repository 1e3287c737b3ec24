import TensorEngine.Proofs.Artifact.Payload
import TensorEngine.Proofs.Artifact.Reading
import TensorEngine.Proofs.Instance.Standards

/-!
# Reference kernels and the extents that they run on

Over the reference implementations alone, a form that was made for some extents has the kernel of an
operation that derives them.  The cache keeps the form under these extents, so it is the kernel that
suits the extents of a run, whichever node it was made for: signatures may collide, extents are told
apart.  A form that was read back has the kernel of its node, but extents that may suit no operation
at all; then no run has them.
-/

namespace TensorEngine

open CatalogueImplementation

variable {registry : Registry CatalogueImplementation} {device : DeviceCaps} {node : Node}
  {declared : List Layout} {shapes : ConcreteShapes} {op : OpSpec} {form : FinalizedForm}
  {bound : BoundImplementation CatalogueImplementation}
  {inst : PrimitiveInstance CatalogueImplementation}
  {workspace : Workspace CatalogueImplementation Environment}

/-! ## Extents and kernels -/

/-- The extents are some that an operation is run on: those of a parameter come with its value, all
others are derived. -/
def ConcreteShapes.Suits (shapes : ConcreteShapes) (op : OpSpec) : Prop :=
  op = .parameter ∨ shapes.DerivedBy op

namespace BoundImplementation

/-- The implementation is a reference implementation. -/
def IsReference (bound : BoundImplementation CatalogueImplementation) : Prop :=
  ∃ reference, bound.implementation = .reference reference

/-- The implementation has the reference kernel of an operation that the extents suit. -/
def RunsOn (shapes : ConcreteShapes) (bound : BoundImplementation CatalogueImplementation) : Prop :=
  ∃ reference op, bound.implementation = .reference reference ∧ reference.kernel = .ofOp op ∧
    shapes.Suits op

theorem RunsOn.isReference (h : bound.RunsOn shapes) : bound.IsReference := by
  obtain ⟨reference, _, hreference, _⟩ := h
  exact ⟨reference, hreference⟩

/-- All candidates are reference implementations. -/
theorem isReference_of_offers (hregistry : registry.descriptors = referenceDescriptors)
    (h : registry.Offers node declared device bound) : bound.IsReference := by
  cases h with
  | mk hselects =>
    have hmem := List.mem_of_getElem? hselects.descriptor_eq
    rw [hregistry] at hmem
    exact ⟨_, (instantiate_reference hmem node).2⟩

end BoundImplementation

/-- A reference implementation is finalized for the operation of its kernel only. -/
theorem ReferenceImplementation.kernel_eq_of_finalize {impl impl' : ReferenceImplementation}
    (h : impl.finalize shapes op = (.ok form, impl')) : impl.kernel = .ofOp op := by
  unfold finalize formFor at h
  by_cases hkernel : RefKernel.ofOp op = impl.kernel
  · exact hkernel.symm
  · simp [hkernel] at h

/-- A form that is made for some extents has the kernel of an operation that they suit. -/
theorem BoundImplementation.IsReference.finalize (h : bound.IsReference)
    {impl : CatalogueImplementation} {env env' : Environment}
    (hfinalize : Implementation.finalize bound.implementation shapes op env =
      (.ok form, impl, env')) :
    form.shapes = shapes ∧
      BoundImplementation.RunsOn shapes { bound with implementation := impl } := by
  obtain ⟨reference, hreference⟩ := h
  rw [hreference, finalize_reference_eq_ok_iff] at hfinalize
  obtain ⟨_, hfinalize, rfl, _⟩ := hfinalize
  have hkernel := ReferenceImplementation.kernel_eq_of_finalize hfinalize
  obtain ⟨hsuits, rfl, rfl⟩ := (ReferenceImplementation.finalize_eq_ok_iff hkernel).1 hfinalize
  exact ⟨rfl, _, op, rfl, hkernel, hsuits⟩

/-! ## The standard -/

namespace Standard

/-- Forms are for the extents that they run on or are kept under, and have a kernel that suits
these, if the node does. -/
def suited : Standard CatalogueImplementation Environment where
  enabled := True
  environment _ := True
  bound _ bound := bound.IsReference
  form node shapes entry := entry.form.shapes = shapes ∧ entry.bound.IsReference ∧
    (shapes.Suits node.op → entry.bound.RunsOn shapes)
  cached key entry := entry.form.shapes = key.2 ∧ entry.bound.RunsOn key.2

/-- A kernel that suits the extents of a form is up to the standard for every node. -/
theorem form_of_runsOn {entry : FinalizedImplementation CatalogueImplementation}
    (hshapes : entry.form.shapes = shapes) (h : entry.bound.RunsOn shapes) :
    suited.form node shapes entry :=
  ⟨hshapes, h.isReference, fun _ ↦ h⟩

/-- An instance that is ready for some extents can be prepared for others. -/
theorem Ready.usable_suited (h : suited.Ready shapes inst) : suited.Usable inst := by
  obtain ⟨hstate, entry, hbound, hform, rfl, hreference, hruns⟩ := h
  exact .ready hstate hbound hform hreference ⟨rfl, hreference, hruns⟩

/-- However an instance changes to other extents, its kernel suits them. -/
theorem specializes_suited {α : Type} (hregistry : registry.descriptors = referenceDescriptors)
    (hkept : suited.Kept workspace) (hbound : inst.bound = some bound)
    (hreference : bound.IsReference)
    {answer : Except RuntimeError α × PrimitiveInstance CatalogueImplementation ×
      Workspace CatalogueImplementation Environment}
    (h : inst.Specializes registry device shapes workspace answer) :
    suited.Prepares shapes inst answer := by
  cases h with
  | @cached a inst' workspace' cache entry hcache hmem _ hadds hsame hstate hbound' hform =>
    obtain ⟨hshapes, hruns⟩ := hkept.keeps cache hcache _ _ hmem
    exact ⟨hkept.adds hadds trivial fun _ _ _ ↦ False.elim, hsame, fun _ _ ↦
      ⟨hstate, entry, hbound', hform, form_of_runsOn hshapes hruns⟩, nofun⟩
  | changed hchanges =>
    cases hchanges with
    | @made a inst' workspace' entry hmakes hadds hsame hstate hbound' hform =>
      obtain ⟨other, _, ⟨hother, _⟩, _, hfinalize, hentry⟩ := hmakes.made
      have hother : other.IsReference := by
        rcases hother with hother | hother
        · exact Option.some.inj (hbound.symm.trans hother) ▸ hreference
        · exact BoundImplementation.isReference_of_offers hregistry hother
      obtain ⟨hshapes, hruns⟩ := hother.finalize hfinalize
      rw [← hentry] at hruns
      refine ⟨hkept.adds hadds trivial ?_, hsame, fun _ _ ↦
        ⟨hstate, entry, hbound', hform, form_of_runsOn hshapes hruns⟩, nofun⟩
      rintro _ key new ⟨rfl, rfl⟩
      exact ⟨rfl, hshapes.symm ▸ hruns⟩
    | failed _ hadds hsame _ hwhy =>
      exact ⟨hkept.adds hadds trivial fun _ _ _ ↦ False.elim, hsame, nofun, fun _ herror ↦
        Except.error.inj herror ▸ hwhy.poisonsProgram⟩

/-- An instance that is prepared for the extents of a run has a kernel that suits them. -/
theorem prepares_suited (device : DeviceCaps)
    (hregistry : registry.descriptors = referenceDescriptors) (husable : suited.Usable inst)
    (hkept : suited.Kept workspace) (shapes : ConcreteShapes) :
    suited.Prepares shapes inst (inst.prepare shapes ⟨registry, device⟩ workspace) := by
  rcases inst.prepare_cases registry device shapes workspace husable.state_eq with
    ⟨hready, hshapes, hanswer⟩ | hspecializes
  · rw [hanswer]
    cases husable with
    | bound hstate =>
      rw [hready] at hstate
      cases hstate
    | @ready entry hstate hbound hform _ hruns =>
      refine ⟨hkept, .refl inst, fun _ _ ↦ ⟨hstate, entry, hbound, hform, ?_⟩, nofun⟩
      rw [PrimitiveInstance.needsReshape, hform, Option.map_some, decide_eq_false_iff_not, not_not,
        Option.some.injEq] at hshapes
      exact hshapes ▸ hruns
  · obtain ⟨bound, hbound, hreference⟩ := husable.exists_bound
    exact specializes_suited hregistry hkept hbound hreference hspecializes

/-- What is read back for a node has the kernel of the node. -/
theorem suited_of_readsBack (hregistry : registry.descriptors = referenceDescriptors)
    {blob : ArtifactBlob} {env env' : Environment} {id : DescriptorId}
    {descriptor : Descriptor CatalogueImplementation} {implementation : CatalogueImplementation}
    (h : PrimitiveInstance.ReadsBack blob node declared registry device env id descriptor form
      implementation env') : suited.form node form.shapes ⟨⟨id, implementation, false⟩, form⟩ := by
  have hmem := List.mem_of_getElem? h.asks.descriptor_eq
  rw [hregistry] at hmem
  have htakes := h.takes
  rw [(instantiate_reference hmem node).2, deserialize_reference_eq_ok_iff] at htakes
  obtain ⟨_, htakes, rfl, _⟩ := htakes
  obtain ⟨_, _, rfl, rfl⟩ := ReferenceImplementation.deserialize_eq_ok_iff.1 htakes
  exact ⟨rfl, ⟨_, rfl⟩, fun hsuits ↦ ⟨_, node.op, rfl, rfl, hsuits⟩⟩

end Standard

end TensorEngine
