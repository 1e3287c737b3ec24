import TensorEngine.Proofs.Artifact.Framing
import TensorEngine.Proofs.Artifact.Reading
import TensorEngine.Proofs.Instance.Records

/-!
# Artifacts of ready instances

A reference, parallel or vendor implementation that is on record is written down, and what was
written is taken over by a new implementation from the same descriptor.  The descriptor is found
again by its name, which no other descriptor of the operation and family has.  So a ready instance
is read back as it was, unless another plan is shared in the place of its own; on another device,
or with a registry that has no such implementation in this version, it is not read back at all.
-/

namespace TensorEngine

open Wire CatalogueImplementation

/-! ## Finding descriptors again -/

namespace Registry

variable {ι : Type} {registry : Registry ι} {id : DescriptorId} {descriptor : Descriptor ι}

/-- No descriptor in front has the same operation, family and name. -/
theorem lookup_eq_some (h : registry.descriptor? id = some descriptor) :
    registry.lookup descriptor.op descriptor.backend descriptor.name = some id := by
  obtain ⟨hlt, rfl⟩ := List.getElem?_eq_some_iff.1 h
  refine List.findIdx?_eq_some_iff_getElem.2 ⟨hlt, by simp, fun other hother ↦ ?_⟩
  have hdistinct := List.pairwise_iff_getElem.1 registry.distinct other id
    (Nat.lt_trans hother hlt) hlt hother
  intro hsame
  simp only [Bool.and_eq_true, decide_eq_true_eq] at hsame
  simp [Descriptor.clashes, hsame] at hdistinct

end Registry

/-! ## Payloads -/

variable {registry : Registry CatalogueImplementation} {device : DeviceCaps} {node : Node}
  {declared : List Layout} {form : FinalizedForm} {table : PlanTable} {payload : Bytes}
  {impl : CatalogueImplementation} {descriptor : Descriptor CatalogueImplementation}
  {inst : PrimitiveInstance CatalogueImplementation}
  {entry : FinalizedImplementation CatalogueImplementation}

/-- The payload is taken over as the form and the implementation, unless another plan is shared in
the place of one of the table. -/
def CatalogueImplementation.Restores (table : PlanTable) (impl : CatalogueImplementation)
    (form : FinalizedForm) (payload : Bytes) : Prop :=
  ∀ env : Environment, table.Agrees env.plans → ∃ env' : Environment,
    Implementation.deserialize impl.blank payload env = (.ok form, impl, env')

/-- What is settled is written down, and restored from what was written. -/
theorem CatalogueImplementation.Settled.exists_restores (h : Settled table impl form) :
    ∃ payload, Implementation.serialize impl = .ok payload ∧
      (form.shapes.Roomy → Restores table impl form payload) := by
  cases h with
  | @reference impl shapes hshapes =>
    refine ⟨encode (impl.kernel, shapes), ?_, fun hroomy env _ ↦ ⟨env, ?_⟩⟩
    · show impl.serialize = _
      simp only [ReferenceImplementation.serialize, hshapes]
    · have hdecode : (decode (encode (impl.kernel, shapes)) : Except Wire.Error _) =
          .ok (impl.kernel, shapes) :=
        (recovers_pair (recovers_refKernel _) (recovers_concreteShapes hroomy)).decode_encode
      refine deserialize_reference_eq_ok_iff.2 ⟨impl, ?_, rfl, rfl⟩
      refine ReferenceImplementation.deserialize_eq_ok_iff.2 ⟨shapes, hdecode, rfl, ?_⟩
      rw [← hshapes]
  | @parallel impl plan shapes hcompiled hkernel hshares =>
    refine ⟨encode (plan, shapes), ?_, fun hroomy env hagrees ↦ ?_⟩
    · show impl.serialize = _
      simp only [ParallelImplementation.serialize, hcompiled]
    · have hdecode : (decode (encode (plan, shapes)) : Except Wire.Error _) =
          .ok (plan, shapes) :=
        (recovers_pair (recovers_kernelPlan _) (recovers_concreteShapes hroomy)).decode_encode
      refine ⟨{ env with plans := (env.plans.adopt plan).2 },
        deserialize_parallel_eq_ok_iff.2 ⟨impl, _, ?_, rfl, rfl⟩⟩
      refine ParallelImplementation.deserialize_eq_ok_iff.2
        ⟨plan, shapes, hdecode, hkernel, ?_, ?_, rfl⟩
      · rw [hagrees plan hshares]
        rfl
      · rw [hagrees plan hshares, ← hcompiled]
  | @gemm impl plan shapes hplan hspec =>
    refine ⟨encode (plan, shapes), ?_, fun hroomy env _ ↦ ⟨env, ?_⟩⟩
    · show impl.serialize = _
      simp only [GemmImplementation.serialize, hplan]
    · have hdecode : (decode (encode (plan, shapes)) : Except Wire.Error _) =
          .ok (plan, shapes) :=
        (recovers_pair (recovers_gemmPlan _) (recovers_concreteShapes hroomy)).decode_encode
      refine deserialize_gemm_eq_ok_iff.2 ⟨impl, ?_, rfl, rfl⟩
      refine GemmImplementation.deserialize_eq_ok_iff.2 ⟨plan, shapes, hdecode, hspec, rfl, ?_⟩
      rw [← hplan]

/-! ## Blobs -/

namespace PrimitiveInstance

def artifactHeader {ι : Type} (inst : PrimitiveInstance ι) (device : DeviceCaps)
    (descriptor : Descriptor ι) (form : FinalizedForm) : ArtifactHeader :=
  { backend := descriptor.backend
    implementation := descriptor.name
    version := descriptor.version
    deviceFingerprint := device.fingerprint
    op := inst.node.kind
    nodeSignature := inst.signature
    shapes := form.shapes }

/-- The header fits what the instance was made for. -/
theorem fits_artifactHeader (henabled : device.enables descriptor.backend = true) :
    (inst.artifactHeader device descriptor form).Fits inst.node inst.declaredInputs device := by
  unfold artifactHeader
  constructor
  · simp only
  · simp only
  · simp only [signature]
  · exact henabled

/-- A ready instance is written down when its implementation is. -/
theorem toArtifact_eq_ok {bound : BoundImplementation CatalogueImplementation}
    (hstate : inst.state = .ready) (hbound : inst.bound = some bound)
    (hform : inst.form = some form)
    (hdescriptor : registry.descriptor? bound.descriptor = some descriptor)
    (hpayload : Implementation.serialize bound.implementation = .ok payload) :
    inst.toArtifact registry device =
      .ok (.ofParts (inst.artifactHeader device descriptor form) payload) := by
  unfold toArtifact
  simp only [hstate, hbound, hform, hdescriptor, hpayload, ne_eq, not_true_eq_false, if_false]
  rfl

/-- An instance that is ready as another one is, with the same implementation in the same form, and
for which nothing was finalized. -/
structure Revives {ι : Type} (read inst : PrimitiveInstance ι) : Prop where
  node_eq : read.node = inst.node
  state_eq : read.state = .ready
  descriptor_eq : read.descriptor? = inst.descriptor?
  implementation_eq : read.implementation? = inst.implementation?
  form_eq : read.form = inst.form
  finalizations_eq : read.stats.finalizations = 0

/-- Slots play no part in it. -/
theorem Revives.attachSlots {ι : Type} {read inst : PrimitiveInstance ι} (h : read.Revives inst)
    (inputSlots inputSlots' : List Nat) (outputSlot outputSlot' : Nat) :
    (read.attachSlots inputSlots outputSlot).Revives (inst.attachSlots inputSlots' outputSlot') :=
  ⟨h.node_eq, h.state_eq, h.descriptor_eq, h.implementation_eq, h.form_eq, h.finalizations_eq⟩

/-- A ready instance that is on record is written down, and what was written is read back as it
was, unless another plan is shared in the place of its own. -/
theorem exists_payload (h : entry.RecordedAs registry device table inst.node descriptor)
    (hpersistable : descriptor.Persistable) (hstate : inst.state = .ready)
    (hbound : inst.bound = some entry.bound) (hform : inst.form = some entry.form) :
    ∃ payload, inst.toArtifact registry device =
        .ok (.ofParts (inst.artifactHeader device descriptor entry.form) payload) ∧
      (entry.form.shapes.Roomy → ∀ env : Environment, table.Agrees env.plans → ∃ read env',
        ofArtifact (.ofParts (inst.artifactHeader device descriptor entry.form) payload) inst.node
          inst.declaredInputs registry device env = (.ok read, env') ∧ read.Revives inst) := by
  obtain ⟨hdescriptor, hop, henabled, hblank⟩ := h.stems
  obtain ⟨payload, hpayload, hrestores⟩ := (h.settled hpersistable).exists_restores
  refine ⟨payload, toArtifact_eq_ok hstate hbound hform hdescriptor hpayload,
    fun hroomy env hagrees ↦ ?_⟩
  obtain ⟨env', htakes⟩ := hrestores hroomy env hagrees
  rw [hblank hpersistable] at htakes
  have hlookup := Registry.lookup_eq_some hdescriptor
  rw [hop] at hlookup
  refine ⟨restored inst.node inst.declaredInputs entry.bound.descriptor
    entry.bound.implementation entry.form, env', ofArtifact_eq_ok_iff.2 ⟨_, _, _, _,
      ⟨fits_artifactHeader henabled, ⟨hlookup, hdescriptor, rfl⟩, htakes, rfl⟩, rfl⟩, ?_⟩
  refine ⟨rfl, rfl, ?_, ?_, hform.symm, rfl⟩
  · rw [descriptor?, descriptor?, hbound]
    rfl
  · rw [implementation?, implementation?, hbound]
    rfl

variable {blob : ArtifactBlob} {env : Environment}

end PrimitiveInstance

end TensorEngine
