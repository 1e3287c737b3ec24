import TensorEngine.Proofs.Artifact.Payload
import TensorEngine.Proofs.Artifact.Reading
import TensorEngine.Proofs.Instance.Finalizing
import TensorEngine.Proofs.Wire.RoundTrip

/-!
# What artifacts are trusted with

A blob is either refused as incompatible with the node, or it yields an instance whose
implementation, kernel and extents are those of its header.  Two things are taken from the payload
on trust: that the operation derives the extents of the result from those of the operands, and that
the numbers of a plan, the size of its chunks among them, belong to the extents.  Where the payload
is right about them, the instance is the same as one that is finalized for the extents, down to its
written form; and only there.
-/

namespace TensorEngine

open Wire

namespace CatalogueImplementation

variable {node : Node} {shapes : ConcreteShapes} {form : FinalizedForm} {payload : Bytes}
  {env env' : Environment} {impl fresh : CatalogueImplementation}

/-- The extents that a new implementation for a node can be finalized for. -/
def Admits (node : Node) (shapes : ConcreteShapes) : CatalogueImplementation → Prop
  | .reference _ => node.op = .parameter ∨ shapes.DerivedBy node.op
  | .parallel _ => shapes.DerivedBy node.op ∧ (elementCount? (shapes.outputs.headD [])).isSome
  | .gemm _ => shapes.DerivedBy node.op
  | .limited _ | .failing _ | .scripted _ => False

/-- The plan by which an implementation works, if any, has chunks of the size that a table answers
for its numbers. -/
def ChunkedBy (table : PlanTable) : CatalogueImplementation → Prop
  | .parallel impl => ∀ compiled ∈ impl.compiled, compiled.1.ChunkedBy table
  | .reference _ | .gemm _ | .limited _ | .failing _ | .scripted _ => True

/-- The plan by which an implementation works, if any, has the numbers of the extents and the chunks
that a table answers for them. -/
def PlansFor (shapes : ConcreteShapes) (table : PlanTable) : CatalogueImplementation → Prop
  | .parallel impl => ∀ compiled ∈ impl.compiled,
    compiled.1.MadeFor shapes ∧ compiled.1.ChunkedBy table
  | .gemm impl => ∀ planned ∈ impl.plan, planned.1.MadeFor shapes
  | .reference _ | .limited _ | .failing _ | .scripted _ => True

/-- How an implementation that was read back compares with a new one that is finalized for the same
extents, in any environment: the new one may be refused; otherwise its form has the same kernel and
extents, and it agrees in everything exactly when the plan is the one for the extents there. -/
structure Compares (node : Node) (shapes : ConcreteShapes) (form : FinalizedForm)
    (impl fresh : CatalogueImplementation) : Prop where
  finalizes_iff (env : Environment) : (∃ form' impl' env',
    Implementation.finalize fresh shapes node.op env = (.ok form', impl', env')) ↔
      Admits node shapes fresh
  agrees : ∀ {env env' : Environment} {form' : FinalizedForm} {impl' : CatalogueImplementation},
    Implementation.finalize fresh shapes node.op env = (.ok form', impl', env') →
      form'.kernel = form.kernel ∧ form'.shapes = form.shapes ∧
      (PlansFor shapes env.plans impl → form' = form ∧ impl' = impl) ∧
      (Implementation.serialize impl' = Implementation.serialize impl ↔
        PlansFor shapes env.plans impl)

/-! ## One family after the other -/

theorem compares_reference {reference reference' : ReferenceImplementation}
    (hkernel : reference.kernel = .ofOp node.op)
    (h : reference.deserialize payload = (.ok form, reference')) (hshapes : form.shapes = shapes) :
    Compares node shapes form (.reference reference') (.reference reference) := by
  obtain ⟨_, _, rfl, rfl⟩ := ReferenceImplementation.deserialize_eq_ok_iff.1 h
  obtain rfl : _ = shapes := hshapes
  refine ⟨fun env ↦ ⟨?_, fun hadmits ↦ ⟨_, _, _, finalize_reference_eq_ok_iff.2 ⟨_,
    (ReferenceImplementation.finalize_eq_ok_iff hkernel).2 ⟨hadmits, rfl, rfl⟩, rfl, rfl⟩⟩⟩, ?_⟩
  · rintro ⟨_, _, _, hfresh⟩
    obtain ⟨_, hfinal, _⟩ := finalize_reference_eq_ok_iff.1 hfresh
    exact ((ReferenceImplementation.finalize_eq_ok_iff hkernel).1 hfinal).1
  · intro _ _ _ _ hfresh
    obtain ⟨_, hfinal, rfl, _⟩ := finalize_reference_eq_ok_iff.1 hfresh
    obtain ⟨_, rfl, rfl⟩ := (ReferenceImplementation.finalize_eq_ok_iff hkernel).1 hfinal
    exact ⟨rfl, rfl, fun _ ↦ ⟨rfl, rfl⟩, iff_of_true rfl trivial⟩

/-- A new parallel implementation goes by the plan that the table of its environment answers. -/
theorem compares_parallel {parallel parallel' : ParallelImplementation}
    {table table' : PlanTable} (hkernel : parallel.kernel = ParallelKernel.ofOp? node.op)
    (h : parallel.deserialize payload table = (.ok form, parallel', table'))
    (hshapes : form.shapes = shapes) :
    Compares node shapes form (.parallel parallel') (.parallel parallel) ∧
      ChunkedBy table' (.parallel parallel') := by
  obtain ⟨plan, planned, _, hsame, rfl, rfl, rfl⟩ :=
    ParallelImplementation.deserialize_eq_ok_iff.1 h
  obtain rfl : planned = shapes := hshapes
  obtain ⟨hadopted, _⟩ := table.adopt_spec plan
  have hchunk := table.chunkedBy_adopt plan
  generalize (table.adopt plan).1 = known at hadopted hchunk ⊢
  rw [hkernel, ← hadopted] at hsame
  refine ⟨⟨fun env ↦ ⟨?_, fun hadmits ↦ ?_⟩, ?_⟩, ?_⟩
  · rintro ⟨_, _, _, hfresh⟩
    obtain ⟨_, _, hfinal, _⟩ := finalize_parallel_eq_ok_iff.1 hfresh
    obtain ⟨_, _, _, hderived, hcount, _⟩ :=
      (ParallelImplementation.finalize_eq_ok_iff hkernel).1 hfinal
    refine ⟨hderived, ?_⟩
    rw [← Option.isSome_map (f := UInt64.ofNat), hcount]
    rfl
  · obtain ⟨count, hcount⟩ := Option.isSome_iff_exists.1 hadmits.2
    exact ⟨_, _, _, finalize_parallel_eq_ok_iff.2 ⟨_, _,
      (ParallelImplementation.finalize_eq_ok_iff hkernel).2 ⟨_, UInt64.ofNat count, hsame,
        hadmits.1, congrArg _ hcount, rfl, rfl, rfl⟩, rfl, rfl⟩⟩
  · intro env _ _ _ hfresh
    obtain ⟨_, _, hfinal, rfl, _⟩ := finalize_parallel_eq_ok_iff.1 hfresh
    obtain ⟨kernel, elements, hop, _, hcount, rfl, rfl, _⟩ :=
      (ParallelImplementation.finalize_eq_ok_iff hkernel).1 hfinal
    obtain rfl := Option.some.inj (hsame.symm.trans hop)
    simp only [PlansFor, Option.mem_some_iff, forall_eq',
      ← PlanTable.compile_eq_iff env.plans known hcount]
    refine ⟨rfl, rfl, fun hknown ↦ ?_, fun hserialize ↦ ?_, fun hknown ↦ ?_⟩
    · rw [hknown]
      exact ⟨rfl, rfl⟩
    · exact (recovers_kernelPlan _).inj (recovers_kernelPlan _) (Except.ok.inj hserialize)
    · rw [hknown]
  · exact fun _ hmem ↦ Option.mem_some_iff.1 hmem ▸ hchunk

theorem compares_gemm {gemm gemm' : GemmImplementation}
    (hspec : ∀ spec, gemm.spec = some spec → node.op = .matMul spec)
    (h : gemm.deserialize payload = (.ok form, gemm')) (hshapes : form.shapes = shapes) :
    Compares node shapes form (.gemm gemm') (.gemm gemm) := by
  obtain ⟨plan, _, _, hsame, rfl, rfl⟩ := GemmImplementation.deserialize_eq_ok_iff.1 h
  obtain rfl : _ = shapes := hshapes
  have hop := hspec plan.spec hsame
  refine ⟨fun env ↦ ⟨?_, fun hadmits ↦ ?_⟩, ?_⟩
  · rintro ⟨_, _, _, hfresh⟩
    obtain ⟨_, hfinal, _⟩ := finalize_gemm_eq_ok_iff.1 hfresh
    obtain ⟨plan', hplan', _⟩ := GemmImplementation.finalize_eq_ok_iff.1 hfinal
    rw [hop, GemmImplementation.planFor_eq_ok_iff hsame] at hplan'
    obtain ⟨hspec', ⟨lhs, rhs, hinputs, hextents⟩, hout⟩ := hplan'
    rw [Admits, hop, ConcreteShapes.derivedBy_matMul_iff]
    exact ⟨lhs, rhs, _, _, _, hinputs, hspec' ▸ hextents, hout⟩
  · rw [Admits, hop, ConcreteShapes.derivedBy_matMul_iff] at hadmits
    obtain ⟨lhs, rhs, m, k, n, hinputs, hextents, hout⟩ := hadmits
    have hplan : gemm.planFor _ (.matMul plan.spec) = .ok ⟨plan.spec, m, k, n⟩ :=
      (GemmImplementation.planFor_eq_ok_iff hsame).2 ⟨rfl, ⟨lhs, rhs, hinputs, hextents⟩, hout⟩
    rw [← hop] at hplan
    exact ⟨_, _, _, finalize_gemm_eq_ok_iff.2 ⟨_,
      GemmImplementation.finalize_eq_ok_iff.2 ⟨_, hplan, rfl, rfl⟩, rfl, rfl⟩⟩
  · intro _ _ _ _ hfresh
    obtain ⟨_, hfinal, rfl, _⟩ := finalize_gemm_eq_ok_iff.1 hfresh
    obtain ⟨plan', hplan', rfl, rfl⟩ := GemmImplementation.finalize_eq_ok_iff.1 hfinal
    rw [hop, GemmImplementation.planFor_eq_ok_iff hsame] at hplan'
    obtain ⟨hspec', hmade', _⟩ := hplan'
    simp only [PlansFor, Option.mem_some_iff, forall_eq']
    refine ⟨rfl, rfl, fun hmade ↦ ?_, fun hserialize ↦ ?_, fun hmade ↦ ?_⟩
    · obtain rfl := hmade'.unique hmade hspec'
      exact ⟨rfl, rfl⟩
    · have hplan : plan' = plan :=
        (recovers_gemmPlan _).inj (recovers_gemmPlan _) (Except.ok.inj hserialize)
      rwa [hplan] at hmade'
    · obtain rfl := hmade'.unique hmade hspec'
      rfl

end CatalogueImplementation

/-! ## All blobs -/

namespace PrimitiveInstance

open CatalogueImplementation

/-- A blob is refused as incompatible with the node, or it is read back: its header fits the node
and the device, it asks for a registered implementation in the stored version, and its payload is
for the kernel of the node and the extents of the header.  Compared with a new implementation that
is finalized for these extents, in any environment, the operation need not admit the extents, and
the plan need not be the one for them there; where both do, the two are the same.  The chunks are
always those for the numbers of the plan in the environment that is left. -/
theorem ofArtifact_spec {registry : Registry CatalogueImplementation}
    (hregistry : ∀ descriptor ∈ registry.descriptors,
      descriptor ∈ referenceDescriptors ++ parallelDescriptors ++ [gemmDescriptor])
    (blob : ArtifactBlob) (node : Node) (declared : List Layout) (device : DeviceCaps)
    (env : Environment) :
    (∀ error, (ofArtifact blob node declared registry device env).1 = .error error →
      ∃ reason, error = .incompatibleArtifact node.id reason) ∧
    ∀ inst env', ofArtifact blob node declared registry device env = (.ok inst, env') →
      ∃ id descriptor form impl,
        ReadsBack blob node declared registry device env id descriptor form impl env' ∧
        inst = restored node declared id impl form ∧
        Compares node blob.header.shapes form impl (descriptor.instantiate node) ∧
        ChunkedBy env'.plans impl := by
  refine ⟨fun error ↦ exists_reason_of_ofArtifact, fun inst env' h ↦ ?_⟩
  obtain ⟨id, descriptor, form, impl, hreads, rfl⟩ := ofArtifact_eq_ok_iff.1 h
  refine ⟨id, descriptor, form, impl, hreads, rfl, ?_⟩
  have htakes := hreads.takes
  rcases List.mem_append.1 (hregistry descriptor
    (List.mem_of_getElem? hreads.asks.descriptor_eq)) with hmem | hmem
  · rcases List.mem_append.1 hmem with hmem | hmem
    · rw [(instantiate_reference hmem node).2] at htakes ⊢
      obtain ⟨_, htaken, rfl, _⟩ := deserialize_reference_eq_ok_iff.1 htakes
      exact ⟨compares_reference rfl htaken hreads.shapes_eq, trivial⟩
    · rw [(instantiate_parallel hmem node).2] at htakes ⊢
      obtain ⟨_, _, htaken, rfl, rfl⟩ := deserialize_parallel_eq_ok_iff.1 htakes
      exact compares_parallel rfl htaken hreads.shapes_eq
  · obtain rfl := List.mem_singleton.1 hmem
    obtain ⟨_, htaken, rfl, _⟩ := deserialize_gemm_eq_ok_iff.1
      (show Implementation.deserialize (gemm (.ofNode node)) _ _ = _ from htakes)
    exact ⟨compares_gemm (fun _ ↦ GemmImplementation.spec_ofNode_eq_some_iff.1) htaken
      hreads.shapes_eq, trivial⟩

/-! ## Blobs that are wrong about their extents -/

/-- The registry of the reference, the parallel and the vendor implementations. -/
def fullRegistry : Registry CatalogueImplementation where
  descriptors := referenceDescriptors ++ parallelDescriptors ++ [gemmDescriptor]
  distinct := by decide +kernel
  complete := by decide +kernel

/-- A device on which all families may be used. -/
def anyDevice : DeviceCaps := ⟨"any", BackendKind.all, 1, []⟩

/-- Two floating-point numbers. -/
def pairLayout : Layout := ⟨⟨[.fixed 2]⟩, .f32, .rowMajor⟩

/-- Two numbers and their negations. -/
def negationGraph : Graph where
  nodes := [⟨⟨0⟩, .parameter, [], [pairLayout]⟩, ⟨⟨1⟩, .unary .neg, [⟨0⟩], [pairLayout]⟩]
  outputs := [⟨1⟩]
  valid := by rfl

/-- The negation of two numbers. -/
def negation : Node := ⟨⟨1⟩, .unary .neg, [⟨0⟩], [pairLayout]⟩

def negationBlob (descriptor : Descriptor CatalogueImplementation) (shapes : ConcreteShapes)
    (payload : Bytes) : ArtifactBlob :=
  .ofParts ⟨descriptor.backend, descriptor.name, descriptor.version, anyDevice.fingerprint,
    negation.kind, negation.signature [pairLayout], shapes⟩ payload

def pairShapes : ConcreteShapes := ⟨[[2]], [[2]]⟩

/-- A blob of the parallel negation with a plan for some number of elements, in chunks of some
size. -/
def plannedBlob (elements chunk : Extent) : ArtifactBlob :=
  negationBlob ((ParallelImplementation.descriptor .elementwiseUnary).map .parallel) pairShapes
    (encode ((⟨.unary .neg, elements, 2, chunk⟩, pairShapes) : KernelPlan × ConcreteShapes))

/-- A blob of the reference negation with one operand of two elements and a result of three. -/
def underivedBlob : ArtifactBlob :=
  negationBlob ((ReferenceImplementation.descriptor .elementwiseUnary).map .reference)
    ⟨[[2]], [[3]]⟩
    (encode ((.unary .neg, ⟨[[2]], [[3]]⟩) : RefKernel × ConcreteShapes))

/-- A blob with a plan of empty chunks is read back, and compares as all blobs do. -/
theorem ofArtifact_spec_plannedBlob : ∃ inst env',
    ofArtifact (plannedBlob 2 0) negation [pairLayout] fullRegistry anyDevice {} =
      (.ok inst, env') ∧
    ∃ id descriptor form impl,
      ReadsBack (plannedBlob 2 0) negation [pairLayout] fullRegistry anyDevice {} id descriptor form
        impl env' ∧
      inst = restored negation [pairLayout] id impl form ∧
      Compares negation pairShapes form impl (descriptor.instantiate negation) ∧
      ChunkedBy env'.plans impl := by
  have hread : (ofArtifact (plannedBlob 2 0) negation [pairLayout] fullRegistry anyDevice
      {}).1.toOption.isSome = true := by
    decide +kernel
  have hspec := (@ofArtifact_spec fullRegistry (fun _ hmem ↦ hmem) (plannedBlob 2 0) negation
    [pairLayout] anyDevice {}).2
  generalize ofArtifact (plannedBlob 2 0) negation [pairLayout] fullRegistry anyDevice {} = answer
    at hread hspec
  obtain ⟨_ | inst, env'⟩ := answer
  · cases hread
  · exact ⟨inst, env', rfl, hspec inst env' rfl⟩

def readForm (blob : ArtifactBlob) : Option FinalizedForm :=
  (ofArtifact blob negation [pairLayout] fullRegistry anyDevice
    ({} : Environment)).1.toOption.bind (·.form)

def afterReading (blob : ArtifactBlob) : Environment :=
  (ofArtifact blob negation [pairLayout] fullRegistry anyDevice {}).2

/-- The form and the written form of a new implementation that is finalized for some extents. -/
def finalized (fresh : CatalogueImplementation) (shapes : ConcreteShapes) (env : Environment) :
    Option (FinalizedForm × Option Bytes) :=
  let answer := Implementation.finalize fresh shapes negation.op env
  answer.1.toOption.map fun form ↦ (form, (Implementation.serialize answer.2.1).toOption)

/-- The form of the parallel negation of two numbers. -/
def pairForm : FinalizedForm :=
  (ParallelImplementation.ofNode negation).form ⟨.unary .neg, 2, 2, 2048⟩ pairShapes

/-- Bytes that are read as a blob may be accepted although no new implementation can be finalized
for their extents, and although a new one has another form and is written down otherwise: the result
has two elements, and the accepted plan says three, or chunks without elements, which no new
implementation is given unless the blob was read. -/
theorem ofArtifact_trusts : negation ∈ negationGraph.nodes ∧
    negationGraph.inputLayouts negation = [pairLayout] ∧
    (∀ blob ∈ [underivedBlob, plannedBlob 3 2048, plannedBlob 2 0],
      ArtifactBlob.ofBytes? blob.bytes = .ok blob ∧ (readForm blob).isSome = true) ∧
    finalized (.reference (.ofNode negation)) underivedBlob.header.shapes
      (afterReading underivedBlob) = none ∧
    finalized (.parallel (.ofNode negation)) pairShapes (afterReading (plannedBlob 3 2048)) =
      some (pairForm, some (plannedBlob 2 2048).payload) ∧
    finalized (.parallel (.ofNode negation)) pairShapes {} =
      some (pairForm, some (plannedBlob 2 2048).payload) ∧
    ∀ blob ∈ [plannedBlob 3 2048, plannedBlob 2 0],
      readForm blob ≠ some pairForm ∧ (plannedBlob 2 2048).payload ≠ blob.payload := by
  refine ⟨?_, ?_, ?_, ?_, ?_, ?_, ?_⟩
  all_goals decide +kernel

end PrimitiveInstance

end TensorEngine
