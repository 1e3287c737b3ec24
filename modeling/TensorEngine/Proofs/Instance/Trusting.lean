import TensorEngine.Proofs.Execution.Success

/-!
# Plans taken on trust

The numbers of a plan that was read back are taken on trust.  A run by wrong numbers fails, since
the lengths of operands and result are compared with them and no product may leave the words.  So
an implementation that succeeds leaves what the reference kernel computes, whatever its plan says.
-/

namespace TensorEngine

open Kernel CatalogueImplementation

/-! ## Runs by a plan -/

namespace CatalogueImplementation

variable {node : Node} {declared : List Layout} {shapes : ConcreteShapes}
  {impl : CatalogueImplementation} {inputs : List TensorView} {out : TensorView} {a o : Array F32}

theorem floats_eq_ok_iff {view : TensorView} :
    ParallelImplementation.floats view = .ok a ↔ view.data = .f32 a := by
  unfold ParallelImplementation.floats
  cases view.data <;> simp [TensorData.asF32, Except.mapError]

section

variable {elements inner chunk : Extent} {outDims : Dims}

private theorem run_binary_of_runPlan {op : BinaryOp} (hop : node.op = .binary op)
    (hargs : Arguments node declared shapes inputs ⟨outDims, .f32 o⟩)
    (h : (ParallelImplementation.runPlan ⟨.binary op, elements, inner, chunk⟩ inputs o).ended =
      .ok ()) :
    ReferenceImplementation.run (.ofOp (.binary op)) inputs ⟨outDims, .f32 o⟩ = ⟨.ok (),
      .f32 (ParallelImplementation.runPlan ⟨.binary op, elements, inner, chunk⟩ inputs o).out⟩ := by
  obtain ⟨⟨lhsDims, lhs⟩, ⟨rhsDims, rhs⟩, rfl, hlhs, hrhs⟩ := hargs.binary hop
  unfold ParallelImplementation.runPlan at h ⊢
  split at h
  · cases h
  · rename_i hsize
    rw [if_neg hsize]
    simp only at h ⊢
    split at h
    · rename_i a b ha hb
      obtain rfl : lhs = .f32 a := floats_eq_ok_iff.1 ha
      obtain rfl : rhs = .f32 b := floats_eq_ok_iff.1 hb
      have hchunk := chunk_ne_zero_of_zipWithChunked h
      rw [run_binary hlhs hrhs]
      simp only [zipWithChunked_eq hchunk hlhs hrhs]
    · cases h
    · cases h

private theorem run_unary_of_runPlan {op : UnaryOp} (hop : node.op = .unary op)
    (hargs : Arguments node declared shapes inputs ⟨outDims, .f32 o⟩)
    (h : (ParallelImplementation.runPlan ⟨.unary op, elements, inner, chunk⟩ inputs o).ended =
      .ok ()) :
    ReferenceImplementation.run (.ofOp (.unary op)) inputs ⟨outDims, .f32 o⟩ = ⟨.ok (),
      .f32 (ParallelImplementation.runPlan ⟨.unary op, elements, inner, chunk⟩ inputs o).out⟩ := by
  obtain ⟨⟨dims, input⟩, rfl, hinput⟩ := hargs.unary hop
  unfold ParallelImplementation.runPlan at h ⊢
  split at h
  · cases h
  · rename_i hsize
    rw [if_neg hsize]
    simp only at h ⊢
    split at h
    · rename_i a ha
      obtain rfl : input = .f32 a := floats_eq_ok_iff.1 ha
      have hchunk := chunk_ne_zero_of_mapChunked h
      rw [run_unary hinput]
      simp only [mapChunked_eq hchunk hinput]
    · cases h

private theorem run_reduce_of_runPlan {spec : ReduceSpec} (hop : node.op = .reduce spec)
    (hargs : Arguments node declared shapes inputs ⟨outDims, .f32 o⟩)
    (h : (ParallelImplementation.runPlan ⟨.reduce spec, elements, inner, chunk⟩ inputs o).ended =
      .ok ()) :
    ReferenceImplementation.run (.ofOp (.reduce spec)) inputs ⟨outDims, .f32 o⟩ = ⟨.ok (),
      .f32 (ParallelImplementation.runPlan ⟨.reduce spec, elements, inner, chunk⟩ inputs
        o).out⟩ := by
  obtain ⟨⟨dims, input⟩, rfl, hinput, hword⟩ := hargs.reduce hop
  unfold ParallelImplementation.runPlan at h ⊢
  split at h
  · cases h
  · rename_i hsize
    rw [if_neg hsize]
    simp only at h ⊢
    split at h
    · rename_i a ha
      obtain rfl : input = .f32 a := floats_eq_ok_iff.1 ha
      rw [run_reduce hinput hword]
      exact congrArg _ (congrArg _ (out_reduceChunked hinput h)).symm
    · cases h

end

/-- A run by a plan that succeeds leaves what the reference kernel computes. -/
theorem run_eq_of_runPlan {plan : KernelPlan} (hargs : Arguments node declared shapes inputs out)
    (hkernel : ParallelKernel.ofOp? node.op = some plan.kernel) (hout : out.data = .f32 o)
    (h : (ParallelImplementation.runPlan plan inputs o).ended = .ok ()) :
    ReferenceImplementation.run (.ofOp node.op) inputs out =
      ⟨.ok (), .f32 (ParallelImplementation.runPlan plan inputs o).out⟩ := by
  obtain ⟨kernel, elements, inner, chunk⟩ := plan
  obtain ⟨outDims, _⟩ := out
  subst hout
  cases hop : node.op with
  | binary op =>
    rw [hop] at hkernel
    obtain rfl : ParallelKernel.binary op = kernel := Option.some.inj hkernel
    exact run_binary_of_runPlan hop hargs h
  | unary op =>
    rw [hop] at hkernel
    obtain rfl : ParallelKernel.unary op = kernel := Option.some.inj hkernel
    exact run_unary_of_runPlan hop hargs h
  | reduce spec =>
    rw [hop] at hkernel
    obtain rfl : ParallelKernel.reduce spec = kernel := Option.some.inj hkernel
    exact run_reduce_of_runPlan hop hargs h
  | parameter | constant | matMul | reshape | reorder =>
    rw [hop] at hkernel
    cases hkernel

/-! ## Implementations -/

/-- A plan that the implementation works by is one for its kernel. -/
def PlannedFor : CatalogueImplementation → Prop
  | .parallel impl => ∀ compiled ∈ impl.compiled, impl.kernel = some compiled.1.kernel
  | .reference _ | .gemm _ | .limited _ | .failing _ | .scripted _ => True

/-- The bounded implementation succeeds on floating-point numbers only. -/
theorem exists_f32_of_run {op : BinaryOp} {lhs rhs out : TensorView}
    (h : (LimitedImplementation.run op lhs rhs out).ended = .ok ()) :
    ∃ a b o, lhs.data = .f32 a ∧ rhs.data = .f32 b ∧ out.data = .f32 o := by
  have hfloat : ∀ {data : TensorData} {a : Array F32}, data.asF32 = .ok a → data = .f32 a := by
    intro data a h
    cases data with
    | f32 => exact congrArg _ (Except.ok.inj h)
    | i32 | u8 => cases h
  unfold LimitedImplementation.run at h
  dsimp only at h
  split at h
  · rename_i harguments
    obtain ⟨_, hlhs, harguments⟩ := bind_eq_ok_iff.1 harguments
    obtain ⟨_, hrhs, harguments⟩ := bind_eq_ok_iff.1 harguments
    obtain ⟨_, hout, _⟩ := bind_eq_ok_iff.1 harguments
    exact ⟨_, _, _, hfloat hlhs, hfloat hrhs, hfloat hout⟩
  · cases h

private theorem run_eq_of_reference {reference : ReferenceImplementation}
    (hkernel : reference.kernel = .ofOp node.op) (h : (reference.execute inputs [out]).1 = .ok ()) :
    ∃ data, (reference.execute inputs [out]).2 = [data] ∧
      ReferenceImplementation.run (.ofOp node.op) inputs out = ⟨.ok (), data⟩ := by
  have hended : ∀ {outcome : Outcome TensorData}, outcome.ended = .ok () →
      outcome = ⟨.ok (), outcome.out⟩ := by
    rintro ⟨_, _⟩ rfl
    rfl
  unfold ReferenceImplementation.execute at h ⊢
  simp only at h ⊢
  split at h
  · cases h
  · rename_i hshapes
    rw [if_neg hshapes]
    exact ⟨_, rfl, hkernel ▸ hended h⟩

private theorem run_eq_of_parallel {parallel : ParallelImplementation}
    (hkernel : parallel.kernel = ParallelKernel.ofOp? node.op)
    (hplanned : PlannedFor (.parallel parallel))
    (hargs : Arguments node declared shapes inputs out)
    (h : (parallel.execute inputs [out]).1 = .ok ()) :
    ∃ data, (parallel.execute inputs [out]).2 = [data] ∧
      ReferenceImplementation.run (.ofOp node.op) inputs out = ⟨.ok (), data⟩ := by
  unfold ParallelImplementation.execute at h ⊢
  simp only at h ⊢
  cases hcompiled : parallel.compiled with
  | none =>
    rw [hcompiled] at h
    cases h
  | some compiled =>
    obtain ⟨plan, planned⟩ := compiled
    simp only [hcompiled] at h ⊢
    cases hout : ParallelImplementation.floats out with
    | error error =>
      rw [hout] at h
      cases h
    | ok o =>
      rw [hout] at h
      exact ⟨_, rfl, run_eq_of_runPlan hargs (hkernel.symm.trans (hplanned _ hcompiled))
        (floats_eq_ok_iff.1 hout) h⟩

private theorem run_eq_of_limited (hargs : Arguments node declared shapes inputs out)
    (h : ((LimitedImplementation.ofNode node).execute inputs [out]).1 = .ok ()) :
    ∃ data, ((LimitedImplementation.ofNode node).execute inputs [out]).2 = [data] ∧
      ReferenceImplementation.run (.ofOp node.op) inputs out = ⟨.ok (), data⟩ := by
  cases hop : node.op with
  | binary op =>
    obtain ⟨⟨lhsDims, lhs⟩, ⟨rhsDims, rhs⟩, rfl, hlhs, hrhs⟩ := hargs.binary hop
    have hlimited : LimitedImplementation.ofNode node = ⟨some op⟩ := by
      simp only [LimitedImplementation.ofNode, hop]
    rw [hlimited] at h ⊢
    obtain ⟨outDims, old⟩ := out
    obtain ⟨a, b, o, rfl, rfl, rfl⟩ := exists_f32_of_run h
    refine ⟨_, rfl, (run_binary hlhs hrhs).trans ?_⟩
    rw [← combine_eq hlhs hrhs]
    rfl
  | _ =>
    simp only [LimitedImplementation.execute, LimitedImplementation.ofNode, hop] at h
    cases h

/-- A run that succeeds leaves what the reference kernel computes. -/
theorem run_eq_of_execute (env : Environment) (hconforms : Conforms node impl)
    (hplanned : PlannedFor impl) (hargs : Arguments node declared shapes inputs out)
    (h : (Implementation.execute impl inputs [out] env).1 = .ok ()) :
    ∃ data, (Implementation.execute impl inputs [out] env).2.1 = [data] ∧
      ReferenceImplementation.run (.ofOp node.op) inputs out = ⟨.ok (), data⟩ := by
  cases impl with
  | reference reference => exact run_eq_of_reference hconforms h
  | parallel parallel => exact run_eq_of_parallel hconforms hplanned hargs h
  | limited limited =>
    obtain rfl : limited = .ofNode node := hconforms
    exact run_eq_of_limited hargs h
  | gemm | failing | scripted => exact hconforms.elim

/-- A finalization leaves an implementation of the node, and one with a plan for its kernel when it
succeeds. -/
structure FinalizesPlanned (node : Node) (impl : CatalogueImplementation)
    (answer : Except BackendError FinalizedForm × CatalogueImplementation × Environment) :
    Prop where
  conforms : Conforms node answer.2.1
  backend_eq : answer.2.1.backend = impl.backend
  planned : ∀ form, answer.1 = .ok form → PlannedFor answer.2.1

/-- Finalizing makes a plan for the kernel at hand, whatever plans are shared. -/
theorem finalizesPlanned (shapes : ConcreteShapes) (env : Environment)
    (hconforms : Conforms node impl) :
    FinalizesPlanned node impl (Implementation.finalize impl shapes node.op env) := by
  cases impl with
  | reference reference =>
    show FinalizesPlanned node (.reference reference)
      (pureAnswer .reference env ((reference.finalize shapes node.op).1,
        (reference.finalize shapes node.op).2, ()))
    unfold ReferenceImplementation.finalize
    cases reference.formFor shapes node.op <;> exact ⟨hconforms, rfl, fun _ _ ↦ trivial⟩
  | parallel parallel =>
    show FinalizesPlanned node (.parallel parallel)
      (planAnswer .parallel env (parallel.finalize shapes node.op env.plans))
    unfold ParallelImplementation.finalize
    cases hkey : parallel.planKey shapes node.op with
    | error error => exact ⟨hconforms, rfl, nofun⟩
    | ok key =>
      obtain ⟨kernel, elements, inner⟩ := key
      obtain ⟨hop, _⟩ := (ParallelImplementation.planKey_eq_ok_iff hconforms).1 hkey
      refine ⟨hconforms, rfl, fun form _ compiled hcompiled ↦ ?_⟩
      obtain rfl := Option.some.inj hcompiled
      obtain ⟨hkernel, _⟩ := env.plans.compile_fst kernel elements inner
      exact (show parallel.kernel = _ from hconforms).trans (hop.trans (congrArg _ hkernel.symm))
  | limited limited => exact ⟨hconforms, rfl, fun _ _ ↦ trivial⟩
  | gemm | failing | scripted => exact hconforms.elim

end CatalogueImplementation

/-! ## The standard -/

/-- Implementations belong to their nodes, and work by plans for their kernels. -/
def planStandard (graph : Graph) (registry : Registry CatalogueImplementation) :
    Standard CatalogueImplementation Environment where
  enabled := graph.SignaturesFaithful
  environment _ := True
  bound node bound := bound.Genuine registry node
  form node _ entry := entry.bound.Genuine registry node ∧ PlannedFor entry.bound.implementation
  cached key entry := ∀ node ∈ graph.nodes, node.signature (graph.inputLayouts node) = key.1 →
    entry.bound.Genuine registry node ∧ PlannedFor entry.bound.implementation

theorem computes_planStandard {graph : Graph} {registry : Registry CatalogueImplementation} :
    (planStandard graph registry).Computes graph :=
  fun hform hargs ↦ run_eq_of_execute _ hform.1.conforms hform.2 hargs

theorem holds_planStandard {graph : Graph} {registry : Registry CatalogueImplementation}
    (device : DeviceCaps)
    (hexact : ∀ descriptor ∈ registry.descriptors, descriptor ∈ exactDescriptors) :
    (planStandard graph registry).Holds graph registry device where
  upheld node hnode shapes :=
    { candidate := by
        intro selection descriptor hselects
        obtain ⟨hconforms, hbackend⟩ := conforms_instantiate node
          (hexact descriptor (List.mem_of_getElem? hselects.descriptor_eq))
        exact ⟨hconforms, descriptor, hselects.descriptor_eq, hbackend.symm⟩
      finalized := by
        intro bound env hgenuine _
        have hfinalizes := finalizesPlanned shapes env hgenuine.conforms
        obtain ⟨descriptor, hdescriptor, hbackend⟩ := hgenuine.origin
        exact ⟨trivial, fun form hform ↦ ⟨⟨hfinalizes.conforms, descriptor, hdescriptor,
          hbackend.trans hfinalizes.backend_eq.symm⟩, hfinalizes.planned form hform⟩⟩
      keep := by
        rintro entry hfaithful ⟨hgenuine, hplanned⟩ other hother hsignature
        dsimp only at hsignature
        obtain ⟨hop, _⟩ := hfaithful other hother node hnode hsignature
        exact ⟨⟨hgenuine.conforms.congr hop.symm, hgenuine.origin⟩, hplanned⟩
      hit := by
        intro entry _ hcached
        dsimp only [planStandard] at hcached
        exact hcached node hnode rfl
      again := fun hform ↦ ⟨hform.1, hform⟩ }
  runs _ _ _ _ _ := trivial

end TensorEngine
