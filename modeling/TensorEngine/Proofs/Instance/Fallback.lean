import TensorEngine.Program
import TensorEngine.Proofs.Graph.Order
import TensorEngine.Proofs.Instance.Finalizing
import TensorEngine.Proofs.Instance.Standards

/-!
# The reference implementation as a way out

Graphs are checked so that the reference kernel of every node has a meaning on the declared element
types, and it can be finalized for the extents of every run.  So where the reference
implementations are registered and enabled, every node can be bound, and every instance that is
bound or ready can be prepared: whatever else is bound, cached or refuses, the search ends at the
reference implementation at the latest.
-/

namespace TensorEngine

open CatalogueImplementation

/-- The extents of a run of a node: those of the result are bound from outside, or derived from
those of the operands. -/
structure Node.Derives (node : Node) (declared : List Layout) (shapes : ConcreteShapes)
    (dims : Dims) : Prop where
  length_inputs : shapes.inputs.length = declared.length
  outputs_eq : shapes.outputs = [dims]
  derived : node.kind = .parameter ∨ node.op.outputDims shapes.inputs = .ok dims

/-- The registry has all reference implementations, perhaps among others. -/
def Registry.HasReferences (registry : Registry CatalogueImplementation) : Prop :=
  ∀ descriptor ∈ referenceDescriptors, descriptor ∈ registry.descriptors

variable {graph : Graph} {registry : Registry CatalogueImplementation} {device : DeviceCaps}
  {node : Node} {p : Nat} {declared : List Layout} {shapes : ConcreteShapes} {dims : Dims}
  {env : Environment}

/-! ## The reference implementation -/

namespace Graph

/-- The element types that a unary operation takes are those on which its kernel has a meaning. -/
private theorem accepts_of_checkType {op : UnaryOp} {dtype : DType} {u : Unit}
    (h : op.checkType dtype = .ok u) : (RefKernel.ofOp (.unary op)).accepts dtype = true := by
  cases op <;> simp only [UnaryOp.checkType] at h <;>
    simp only [RefKernel.ofOp, RefKernel.accepts] <;> split at h <;> simp_all

/-- Matrices are multiplied in one element type, which is not that of bytes. -/
private theorem dtype_of_matMul {spec : MatMulSpec} {lhs rhs layout : Layout}
    (h : (OpSpec.matMul spec).outputLayout [lhs, rhs] = .ok layout) :
    lhs.dtype = rhs.dtype ∧ layout.dtype = rhs.dtype ∧ rhs.dtype ≠ .u8 := by
  unfold OpSpec.outputLayout at h
  by_cases hsame : lhs.dtype = rhs.dtype
  · by_cases hbytes : rhs.dtype = .u8
    · simp [hsame, hbytes] at h
    · simp only [hsame, hbytes, ne_eq, not_true_eq_false, if_false] at h
      refine ⟨hsame, ?_, hbytes⟩
      split at h
      · obtain ⟨_, _, hlayout⟩ := bind_eq_ok_iff.1 h
        obtain rfl := Except.ok.inj hlayout
        rfl
      · cases h
  · simp [hsame] at h

/-- The reference kernel of a node has a meaning on all its declared element types. -/
theorem accepts_ofOp (h : graph.nodes[p]? = some node) :
    ∀ layout ∈ graph.inputLayouts node ++ node.outputs,
      (RefKernel.ofOp node.op).accepts layout.dtype = true := by
  have hfits := fits h
  have hlen := length_inputLayouts h
  rw [hfits.outputs_eq]
  generalize graph.inputLayouts node = declared at hfits hlen
  have hderived := hfits.derived
  unfold Node.kind at hderived
  cases hop : node.op with
  | unary op =>
    rw [hop] at hlen hderived
    obtain ⟨input, rfl⟩ := List.length_eq_one_iff.1 hlen
    obtain ⟨layout, hlayout, hdtype, _⟩ := hderived.resolve_left nofun
    obtain ⟨_, htype, hlayout⟩ := bind_eq_ok_iff.1 hlayout
    obtain rfl : input = layout := Except.ok.inj hlayout
    have haccepts := accepts_of_checkType htype
    intro other hother
    rcases List.mem_append.1 hother with hother | hother
    · rw [List.mem_singleton.1 hother]
      exact haccepts
    · rw [List.mem_singleton.1 hother, ← hdtype]
      exact haccepts
  | matMul spec =>
    rw [hop] at hlen hderived
    obtain ⟨lhs, rhs, rfl⟩ := List.length_eq_two.1 hlen
    obtain ⟨layout, hlayout, hdtype, _⟩ := hderived.resolve_left nofun
    obtain ⟨hsame, hkept, hbytes⟩ := dtype_of_matMul hlayout
    intro other hother
    have hother' : other.dtype = rhs.dtype := by
      simp only [List.cons_append, List.nil_append, List.mem_cons, List.not_mem_nil,
        or_false] at hother
      rcases hother with rfl | rfl | rfl
      · exact hsame
      · rfl
      · rw [← hdtype, hkept]
    rw [hother']
    simpa [RefKernel.ofOp, RefKernel.accepts] using hbytes
  | parameter | constant | binary | reduce | reshape | reorder => exact fun _ _ ↦ rfl

end Graph

/-- The reference implementation takes layouts of the declared element types. -/
theorem supports_reference_of_dtypes (h : graph.nodes[p]? = some node)
    {reference : ReferenceImplementation} (hkernel : reference.kernel = .ofOp node.op)
    {inputs outputs : List Layout} (hdtypes : ∀ layout ∈ inputs ++ outputs,
      ∃ declared ∈ graph.inputLayouts node ++ node.outputs, declared.dtype = layout.dtype) :
    Implementation.supports (CatalogueImplementation.reference reference) inputs outputs =
      true := by
  show reference.supports _ _ = true
  rw [ReferenceImplementation.supports, List.all_eq_true, hkernel]
  intro layout hmem
  obtain ⟨declared, hdeclared, hdtype⟩ := hdtypes layout hmem
  rw [← hdtype]
  exact Graph.accepts_ofOp h declared hdeclared

/-- The reference implementation takes all extents of its node. -/
theorem supports_reference (h : graph.nodes[p]? = some node) {reference : ReferenceImplementation}
    (hkernel : reference.kernel = .ofOp node.op) (inputs outputs : List Dims) :
    Implementation.supports (CatalogueImplementation.reference reference)
      (ConcreteShapes.pin (graph.inputLayouts node) inputs)
      (ConcreteShapes.pin node.outputs outputs) = true := by
  have hpin : ∀ {layouts : List Layout} {dims : List Dims} {layout : Layout},
      layout ∈ ConcreteShapes.pin layouts dims → ∃ declared ∈ layouts,
        declared.dtype = layout.dtype := by
    intro layouts dims layout hmem
    obtain ⟨⟨declared, extents⟩, hzip, rfl⟩ := List.mem_map.1 hmem
    exact ⟨declared, (List.of_mem_zip hzip).1, rfl⟩
  refine supports_reference_of_dtypes h hkernel fun layout hmem ↦ ?_
  rcases List.mem_append.1 hmem with hmem | hmem
  · obtain ⟨declared, hdeclared, hdtype⟩ := hpin hmem
    exact ⟨declared, List.mem_append_left _ hdeclared, hdtype⟩
  · obtain ⟨declared, hdeclared, hdtype⟩ := hpin hmem
    exact ⟨declared, List.mem_append_right _ hdeclared, hdtype⟩

/-- The reference implementation can be finalized for the extents of a run. -/
theorem exists_form_of_reference (h : node.Derives declared shapes dims)
    {reference : ReferenceImplementation} (hkernel : reference.kernel = .ofOp node.op) :
    ∃ form, (Implementation.finalize (CatalogueImplementation.reference reference) shapes node.op
      env).1 = .ok form := by
  have hadmits : node.op = .parameter ∨ shapes.DerivedBy node.op := by
    refine h.derived.imp (fun hkind ↦ ?_) fun hdims ↦ ⟨dims, hdims, h.outputs_eq⟩
    unfold Node.kind at hkind
    cases hop : node.op <;> simp [hop, OpSpec.kind] at hkind
    rfl
  exact ⟨reference.form shapes, congrArg Prod.fst (finalize_reference_eq_ok_iff.2 ⟨_,
    (ReferenceImplementation.finalize_eq_ok_iff hkernel).2 ⟨hadmits, rfl, rfl⟩, rfl, rfl⟩)⟩

abbrev Node.referenceDescriptor (node : Node) : Descriptor CatalogueImplementation :=
  (ReferenceImplementation.descriptor node.kind).map .reference

namespace Registry

/-- The reference implementation takes every layout, at least after a conversion. -/
theorem matchesWithConversion_reference (node : Node) (layout : Layout) :
    node.referenceDescriptor.matchesWithConversion layout = true := by
  rw [Descriptor.matchesWithConversion, Bool.or_eq_true]
  refine .inr (List.any_eq_true.2 ⟨(layout.dtype, .any), ?_, by simp⟩)
  show (layout.dtype, Format.any) ∈
    Descriptor.pairings DType.all ReferenceImplementation.formats
  cases layout.dtype <;> decide

/-- The reference implementation is among the candidates for every node. -/
theorem HasReferences.exists_selection (h : registry.HasReferences) (node : Node)
    (declared : List Layout) (hdevice : device.enables .reference = true) :
    ∃ selection ∈ registry.selections node declared device,
      registry.descriptor? selection.descriptor = some node.referenceDescriptor := by
  have hmem : node.referenceDescriptor ∈ referenceDescriptors :=
    List.mem_map_of_mem (List.mem_map_of_mem (by cases node.kind <;> decide))
  obtain ⟨id, hid⟩ := List.mem_iff_getElem?.1 (h _ hmem)
  have henabled : (node.referenceDescriptor, id) ∈ registry.enabled node device :=
    mem_enabled_iff.2 ⟨hid, rfl, hdevice⟩
  unfold selections
  simp only [List.partition_eq_filter_filter]
  by_cases hexact : (declared ++ node.outputs).all node.referenceDescriptor.matchesExactly = true
  · refine ⟨⟨id, false⟩, List.mem_append_left _ (List.mem_map.2 ⟨id, ?_, rfl⟩), hid⟩
    exact mem_ranked_iff.2 ⟨_, List.mem_filter.2 ⟨henabled, hexact⟩⟩
  · refine ⟨⟨id, true⟩, List.mem_append_right _ (List.mem_map.2 ⟨id, ?_, rfl⟩), hid⟩
    refine mem_ranked_iff.2 ⟨_, List.mem_filter.2 ⟨List.mem_filter.2 ⟨henabled, ?_⟩, ?_⟩⟩
    · simp only [Function.comp_apply, hexact, Bool.not_false]
    · exact List.all_eq_true.2 fun layout _ ↦ matchesWithConversion_reference node layout

theorem HasReferences.candidates_eq (h : registry.HasReferences) (node : Node)
    (declared : List Layout) (hdevice : device.enables .reference = true) :
    registry.candidates node declared device = .ok (registry.selections node declared device) := by
  obtain ⟨selection, hmem, _⟩ := h.exists_selection node declared hdevice
  unfold candidates
  generalize registry.selections node declared device = selections at hmem
  cases selections with
  | nil => cases hmem
  | cons => rfl

end Registry

/-- What is bound under the reference descriptor of a node runs the kernel of the node. -/
def BoundImplementation.Grounded (registry : Registry CatalogueImplementation) (node : Node)
    (bound : BoundImplementation CatalogueImplementation) : Prop :=
  registry.descriptor? bound.descriptor = some node.referenceDescriptor →
    ∃ reference, bound.implementation = .reference reference ∧ reference.kernel = .ofOp node.op

/-- What is bound for a node may be bound for another one with the same operation. -/
theorem BoundImplementation.Grounded.congr {other : Node}
    {bound : BoundImplementation CatalogueImplementation} (h : bound.Grounded registry node)
    (hop : node.op = other.op) : bound.Grounded registry other := by
  unfold Grounded Node.referenceDescriptor Node.kind at h ⊢
  rw [← hop]
  exact h

/-! ## The search always ends -/

namespace PrimitiveInstance

variable {inst : PrimitiveInstance CatalogueImplementation} {failures : List String}
  {workspace : Workspace CatalogueImplementation Environment} {error : RuntimeError}

/-- The reference implementation takes all extents of its instance. -/
private theorem supports_of_descriptor (hof : inst.Of graph) (shapes : ConcreteShapes) :
    Implementation.supports (inst.node.referenceDescriptor.instantiate inst.node)
      (inst.concreteInputs shapes) (inst.concreteOutputs shapes) = true := by
  obtain ⟨p, hnode⟩ := hof.exists_place
  have hkernel : (ReferenceImplementation.ofNode inst.node).kernel = .ofOp inst.node.op := rfl
  have htakes := supports_reference hnode hkernel shapes.inputs shapes.outputs
  rw [← hof.declared_eq] at htakes
  exact htakes

/-- A search that comes to the reference implementation finds a form. -/
theorem exists_entry_of_reference (hof : inst.Of graph)
    (hderives : inst.node.Derives inst.declaredInputs shapes dims) (selections : List Selection) :
    (∃ selection ∈ selections, registry.descriptor? selection.descriptor =
        some inst.node.referenceDescriptor) →
      ∀ env : Environment, ∃ entry,
        (firstFinalizing registry inst shapes selections env).1 = some entry := by
  induction selections with
  | nil => exact fun ⟨_, hmem, _⟩ ↦ absurd hmem List.not_mem_nil
  | cons selection rest ih =>
    rintro ⟨target, hmem, htarget⟩ env
    have hrest : registry.descriptor? selection.descriptor ≠ some inst.node.referenceDescriptor →
        ∀ env : Environment, ∃ entry,
          (firstFinalizing registry inst shapes rest env).1 = some entry := by
      intro hne
      rcases List.mem_cons.1 hmem with rfl | hmem
      · exact absurd htarget hne
      · exact ih ⟨target, hmem, htarget⟩
    unfold firstFinalizing
    cases hdescriptor : registry.descriptor? selection.descriptor with
    | none => exact hrest (hdescriptor ▸ (Option.some_ne_none _).symm) env
    | some descriptor =>
      rw [hdescriptor] at hrest
      by_cases hreference : descriptor = inst.node.referenceDescriptor
      · subst hreference
        obtain ⟨form, hform⟩ : ∃ form, (Implementation.finalize
            (inst.node.referenceDescriptor.instantiate inst.node) shapes inst.node.op env).1 =
              .ok form := exists_form_of_reference hderives rfl
        simp only [supports_of_descriptor hof shapes, if_true]
        generalize hanswer : Implementation.finalize (inst.node.referenceDescriptor.instantiate
          inst.node) shapes inst.node.op env = answer
        obtain ⟨result, implementation, env'⟩ := answer
        obtain rfl : result = .ok form := (congrArg Prod.fst hanswer).symm.trans hform
        exact ⟨_, rfl⟩
      · replace hrest := hrest fun hsome ↦ hreference (Option.some.inj hsome)
        simp only
        split
        · generalize Implementation.finalize (descriptor.instantiate inst.node) shapes inst.node.op
            env = answer
          obtain ⟨_ | form, implementation, env'⟩ := answer
          · exact hrest env'
          · exact ⟨_, rfl⟩
        · exact hrest env

/-- Another implementation takes the place of one that is not the reference implementation. -/
theorem exists_ok_of_reselect (hreferences : registry.HasReferences)
    (hdevice : device.enables .reference = true) (hof : inst.Of graph)
    (hderives : inst.node.Derives inst.declaredInputs shapes dims)
    (hbound : ∀ bound, inst.bound = some bound →
      registry.descriptor? bound.descriptor ≠ some inst.node.referenceDescriptor) :
    ∃ a, (inst.reselect shapes ⟨registry, device⟩ failures workspace).1 = .ok a := by
  obtain ⟨selection, hmem, hreference⟩ :=
    hreferences.exists_selection inst.node inst.declaredInputs hdevice
  have hother : some selection.descriptor ≠ inst.descriptor? := by
    intro hsame
    obtain ⟨bound, hsome, hdescriptor⟩ := Option.map_eq_some_iff.1 hsame.symm
    exact hbound bound hsome (hdescriptor ▸ hreference)
  obtain ⟨entry, hentry⟩ := exists_entry_of_reference hof hderives
    ((registry.selections inst.node inst.declaredInputs device).filter fun selection ↦
      some selection.descriptor ≠ inst.descriptor?)
    ⟨selection, List.mem_filter.2 ⟨hmem, decide_eq_true hother⟩, hreference⟩ workspace.environment
  unfold reselect
  simp only [hreferences.candidates_eq inst.node inst.declaredInputs hdevice]
  generalize firstFinalizing registry inst shapes _ workspace.environment = answer at hentry
  obtain ⟨found, more, env⟩ := answer
  obtain rfl : found = some entry := hentry
  exact ⟨_, rfl⟩

/-- The bound implementation is finalized, or another one takes its place. -/
theorem exists_ok_of_finalizeOrReselect (hreferences : registry.HasReferences)
    (hdevice : device.enables .reference = true) (hof : inst.Of graph)
    (hderives : inst.node.Derives inst.declaredInputs shapes dims)
    {bound : BoundImplementation CatalogueImplementation} (hbound : inst.bound = some bound)
    (hgrounded : bound.Grounded registry inst.node) :
    ∃ a, (inst.finalizeOrReselect shapes ⟨registry, device⟩ workspace).1 = .ok a := by
  unfold finalizeOrReselect
  simp only [hbound]
  split
  · cases hanswer : Implementation.finalize bound.implementation shapes inst.node.op
      workspace.environment with
    | mk result answer =>
      obtain ⟨implementation, env⟩ := answer
      cases result with
      | ok form => exact ⟨_, rfl⟩
      | error error =>
        simp only
        refine exists_ok_of_reselect hreferences hdevice ⟨hof.node_mem, hof.declared_eq⟩ hderives
          fun bound' hbound' hreference ↦ ?_
        obtain rfl := Option.some.inj hbound'
        obtain ⟨reference, himpl, hkernel⟩ := hgrounded hreference
        obtain ⟨form, hform⟩ : ∃ form, (Implementation.finalize bound.implementation shapes
            inst.node.op workspace.environment).1 = .ok form :=
          himpl ▸ exists_form_of_reference hderives hkernel
        rw [hanswer] at hform
        cases hform
  · rename_i hsupports
    refine exists_ok_of_reselect hreferences hdevice hof hderives fun bound' hbound' hreference ↦ ?_
    obtain rfl : bound = bound' := Option.some.inj (hbound.symm.trans hbound')
    obtain ⟨reference, himpl, hkernel⟩ := hgrounded hreference
    obtain ⟨p, hnode⟩ := hof.exists_place
    have htakes := supports_reference hnode hkernel shapes.inputs shapes.outputs
    rw [← hof.declared_eq, ← himpl] at htakes
    refine hsupports ?_
    rw [boundSupports, implementation?, hbound, Option.map_some, Option.any_some]
    exact htakes

/-- A form is found in the cache or made. -/
theorem exists_ok_of_specialize (hreferences : registry.HasReferences)
    (hdevice : device.enables .reference = true) (hof : inst.Of graph)
    (hderives : inst.node.Derives inst.declaredInputs shapes dims)
    {bound : BoundImplementation CatalogueImplementation} (hbound : inst.bound = some bound)
    (hgrounded : bound.Grounded registry inst.node) :
    ∃ a, (inst.specialize shapes ⟨registry, device⟩ workspace).1 = .ok a := by
  simp only [specialize]
  generalize workspace.cached (inst.signature, shapes) _ = answer
  obtain ⟨_ | entry, workspace'⟩ := answer
  · exact exists_ok_of_finalizeOrReselect hreferences hdevice hof hderives hbound hgrounded
  · exact ⟨_, rfl⟩

/-- An instance that is bound or ready can be prepared for the extents of every run. -/
theorem exists_ok_of_prepare (hreferences : registry.HasReferences)
    (hdevice : device.enables .reference = true) (hof : inst.Of graph)
    (hderives : inst.node.Derives inst.declaredInputs shapes dims)
    (hstate : inst.state = .bound ∨ inst.state = .ready)
    {bound : BoundImplementation CatalogueImplementation} (hbound : inst.bound = some bound)
    (hgrounded : bound.Grounded registry inst.node) :
    ∃ transition, (inst.prepare shapes ⟨registry, device⟩ workspace).1 = .ok transition := by
  unfold prepare
  rcases hstate with hstate | hstate
  · obtain ⟨a, ha⟩ : ∃ a, (inst.specialize shapes ⟨registry, device⟩ workspace).1 = .ok a :=
      exists_ok_of_specialize hreferences hdevice hof hderives hbound hgrounded
    simp only [hstate]
    generalize inst.specialize shapes ⟨registry, device⟩ workspace = answer at ha
    obtain ⟨result, inst', workspace'⟩ := answer
    obtain rfl : result = .ok a := ha
    exact ⟨_, rfl⟩
  · obtain ⟨a, ha⟩ : ∃ a, ((inst.withState .stale).specialize shapes ⟨registry, device⟩
        workspace).1 = .ok a :=
      exists_ok_of_specialize hreferences hdevice ⟨hof.node_mem, hof.declared_eq⟩ hderives hbound
        hgrounded
    simp only [hstate]
    split
    · exact ⟨_, rfl⟩
    · generalize (inst.withState .stale).specialize shapes ⟨registry, device⟩ workspace = answer
        at ha
      obtain ⟨result, inst', workspace'⟩ := answer
      obtain rfl : result = .ok a := ha
      exact ⟨_, rfl⟩

end PrimitiveInstance

end TensorEngine
