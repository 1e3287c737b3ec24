import TensorEngine.Catalogue
import TensorEngine.Proofs.Sequencing

/-!
# What finalizing answers

An implementation that was created for an operation can be finalized for some extents exactly when
the operation derives the extents of the result from those of the operands.  It is then left with
these extents and, if it works by a plan, with the plan for them.
-/

namespace TensorEngine

variable {op : OpSpec} {shapes : ConcreteShapes} {form : FinalizedForm}

/-- The operation derives the extents of the single result from those of the operands. -/
def ConcreteShapes.DerivedBy (shapes : ConcreteShapes) (op : OpSpec) : Prop :=
  ∃ dims, op.outputDims shapes.inputs = .ok dims ∧ shapes.outputs = [dims]

/-! ## Reference implementations -/

theorem RefKernel.ofOp_eq_parameter_iff : RefKernel.ofOp op = .parameter ↔ op = .parameter := by
  cases op <;> simp [ofOp]

namespace ReferenceImplementation

variable {impl impl' : ReferenceImplementation}

theorem checkShapes_eq_ok_iff {u : Unit} : checkShapes shapes op = .ok u ↔ shapes.DerivedBy op := by
  unfold checkShapes ConcreteShapes.DerivedBy
  simp only [bind_eq_ok_iff, mapError_eq_ok_iff]
  refine exists_congr fun dims ↦ and_congr_right fun _ ↦ ?_
  by_cases hout : shapes.outputs = [dims] <;> simp [hout]

theorem formFor_eq_ok_iff (hkernel : impl.kernel = .ofOp op) :
    impl.formFor shapes op = .ok form ↔
      (op = .parameter ∨ shapes.DerivedBy op) ∧ form = impl.form shapes := by
  unfold formFor
  by_cases hparameter : op = .parameter
  · simp [hkernel, hparameter, RefKernel.ofOp, eq_comm]
  · have hne : impl.kernel ≠ .parameter := fun h ↦
      hparameter (RefKernel.ofOp_eq_parameter_iff.1 (hkernel ▸ h))
    simp only [hkernel.symm, ne_eq, not_true_eq_false, if_false, hne, not_false_eq_true, if_true,
      hparameter, false_or, bind_eq_ok_iff, checkShapes_eq_ok_iff, exists_const, pure_eq_ok,
      Except.ok.injEq]
    exact and_congr_right fun _ ↦ eq_comm

theorem finalize_eq_ok_iff (hkernel : impl.kernel = .ofOp op) :
    impl.finalize shapes op = (.ok form, impl') ↔ (op = .parameter ∨ shapes.DerivedBy op) ∧
      form = impl.form shapes ∧ impl' = { impl with shapes := some shapes } := by
  unfold finalize
  cases hform : impl.formFor shapes op with
  | error error =>
    refine ⟨fun h ↦ absurd (Prod.mk.inj h).1 error_ne_ok, fun h ↦ ?_⟩
    rw [(formFor_eq_ok_iff hkernel).2 ⟨h.1, rfl⟩] at hform
    cases hform
  | ok form' =>
    obtain ⟨hderived, rfl⟩ := (formFor_eq_ok_iff hkernel).1 hform
    simp only [Prod.mk.injEq, Except.ok.injEq, hderived, true_and]
    exact and_congr eq_comm eq_comm

end ReferenceImplementation

/-! ## Parallel implementations -/

/-- The elements that one row of the first operand has. -/
def ConcreteShapes.rowLength (shapes : ConcreteShapes) : Extent :=
  (shapes.inputs.head?.bind List.getLast?).getD 1

/-- The size of the chunks that a table answers for some numbers: that of the plan that it has for
them, or the one for its threads. -/
def PlanTable.chunkFor (table : PlanTable) (kernel : ParallelKernel) (elements inner : Extent) :
    Extent :=
  match table.find? kernel elements inner with
  | some known => known.chunk
  | none => UInt64.ofNat (KernelPlan.taskChunk elements.toNat inner.toNat table.threads)

/-- The numbers of a plan are those of the extents, apart from the size of its chunks. -/
structure KernelPlan.MadeFor (plan : KernelPlan) (shapes : ConcreteShapes) : Prop where
  elements_eq :
    (elementCount? (shapes.outputs.headD [])).map UInt64.ofNat = some plan.elements
  inner_eq : plan.inner = shapes.rowLength

/-- The chunks of a plan have the size that a table answers for its numbers. -/
def KernelPlan.ChunkedBy (plan : KernelPlan) (table : PlanTable) : Prop :=
  plan.chunk = table.chunkFor plan.kernel plan.elements plan.inner

namespace PlanTable

variable {table : PlanTable} {plan : KernelPlan}

theorem find?_eq_some {kernel : ParallelKernel} {elements inner : Extent}
    (h : table.find? kernel elements inner = some plan) :
    plan ∈ table.plans ∧ plan.kernel = kernel ∧ plan.elements = elements ∧ plan.inner = inner := by
  have hkey := List.find?_some h
  simp only [Bool.and_eq_true, decide_eq_true_eq] at hkey
  exact ⟨List.mem_of_find?_eq_some h, hkey.1.1, hkey.1.2, hkey.2⟩

theorem adopt_of_find?_eq_some {known : KernelPlan}
    (h : table.find? plan.kernel plan.elements plan.inner = some known) :
    table.adopt plan = (known, table) := by
  simp only [adopt, h]

/-- The plan that is answered is for the same kernel and numbers, and it is found again. -/
theorem adopt_spec (table : PlanTable) (plan : KernelPlan) :
    (table.adopt plan).1.kernel = plan.kernel ∧ (table.adopt plan).1.elements = plan.elements ∧
      (table.adopt plan).1.inner = plan.inner ∧
      (table.adopt plan).2.find? plan.kernel plan.elements plan.inner =
        some (table.adopt plan).1 := by
  cases hknown : table.find? plan.kernel plan.elements plan.inner with
  | some known =>
    rw [adopt_of_find?_eq_some hknown]
    obtain ⟨_, hkernel, helements, hinner⟩ := find?_eq_some hknown
    exact ⟨hkernel, helements, hinner, hknown⟩
  | none =>
    have hadopt : table.adopt plan = (plan, { table with plans := table.plans ++ [plan] }) := by
      simp only [adopt, hknown]
    rw [find?] at hknown
    rw [hadopt]
    exact ⟨rfl, rfl, rfl, by simp [find?, List.find?_append, hknown]⟩

/-- The table that adopts a plan answers the chunks of the plan that it goes by. -/
theorem chunkedBy_adopt (table : PlanTable) (plan : KernelPlan) :
    (table.adopt plan).1.ChunkedBy (table.adopt plan).2 := by
  obtain ⟨hkernel, helements, hinner, hknown⟩ := adopt_spec table plan
  rw [KernelPlan.ChunkedBy, chunkFor, hkernel, helements, hinner, hknown]

/-- The plan that is answered for some numbers. -/
theorem compile_fst_eq (table : PlanTable) (kernel : ParallelKernel) (elements inner : Extent) :
    (table.compile kernel elements inner).1 =
      ⟨kernel, elements, inner, table.chunkFor kernel elements inner⟩ := by
  unfold compile chunkFor
  cases hknown : table.find? kernel elements inner with
  | some known =>
    rw [adopt_of_find?_eq_some hknown]
    obtain ⟨_, rfl, rfl, rfl⟩ := find?_eq_some hknown
    rfl
  | none => simp only [adopt, hknown]

theorem compile_fst (table : PlanTable) (kernel : ParallelKernel) (elements inner : Extent) :
    (table.compile kernel elements inner).1.kernel = kernel ∧
      (table.compile kernel elements inner).1.elements = elements ∧
      (table.compile kernel elements inner).1.inner = inner := by
  rw [compile_fst_eq]
  exact ⟨rfl, rfl, rfl⟩

/-- The plan for some extents is a given one exactly when that was made for them and has the chunks
that the table answers. -/
theorem compile_eq_iff (table : PlanTable) (plan : KernelPlan) {elements : Extent}
    (hcount : (elementCount? (shapes.outputs.headD [])).map UInt64.ofNat = some elements) :
    (table.compile plan.kernel elements shapes.rowLength).1 = plan ↔
      plan.MadeFor shapes ∧ plan.ChunkedBy table := by
  rw [compile_fst_eq]
  constructor
  · intro h
    have helements : elements = plan.elements := congrArg KernelPlan.elements h
    have hinner : shapes.rowLength = plan.inner := congrArg KernelPlan.inner h
    refine ⟨⟨hcount.trans (congrArg some helements), hinner.symm⟩, ?_⟩
    rw [KernelPlan.ChunkedBy, ← helements, ← hinner]
    exact (congrArg KernelPlan.chunk h).symm
  · rintro ⟨hmade, hchunk⟩
    obtain rfl : elements = plan.elements := Option.some.inj (hcount.symm.trans hmade.elements_eq)
    rw [← hmade.inner_eq, ← hchunk]

end PlanTable

namespace ParallelImplementation

variable {impl impl' : ParallelImplementation} {kernel : ParallelKernel} {table table' : PlanTable}

theorem planKey_eq_ok_iff (hkernel : impl.kernel = ParallelKernel.ofOp? op)
    {elements inner : Extent} : impl.planKey shapes op = .ok (kernel, elements, inner) ↔
      ParallelKernel.ofOp? op = some kernel ∧ shapes.DerivedBy op ∧
        (elementCount? (shapes.outputs.headD [])).map UInt64.ofNat = some elements ∧
        inner = shapes.rowLength := by
  unfold planKey ConcreteShapes.DerivedBy ConcreteShapes.rowLength
  rw [hkernel]
  cases ParallelKernel.ofOp? op with
  | none => simp
  | some kernel' =>
    simp only [ne_eq, not_true_eq_false, if_false, bind_eq_ok_iff, mapError_eq_ok_iff,
      Option.some.injEq]
    constructor
    · rintro ⟨dims, hdims, h⟩
      by_cases hout : shapes.outputs = [dims]
      · simp only [hout, not_true_eq_false, if_false] at h
        cases hcount : elementCount? dims with
        | none => simp [hcount] at h
        | some count =>
          simp only [hcount, pure_eq_ok, Except.ok.injEq, Prod.mk.injEq] at h
          obtain ⟨rfl, rfl, rfl⟩ := h
          exact ⟨rfl, ⟨dims, hdims, hout⟩, by simp [hout, hcount], rfl⟩
      · simp [hout] at h
    · rintro ⟨rfl, ⟨dims, hdims, hout⟩, hcount, rfl⟩
      refine ⟨dims, hdims, ?_⟩
      rw [hout, List.headD_cons, Option.map_eq_some_iff] at hcount
      obtain ⟨count, hcount, rfl⟩ := hcount
      simp [hout, hcount]

theorem finalize_eq_ok_iff (hkernel : impl.kernel = ParallelKernel.ofOp? op) :
    impl.finalize shapes op table = (.ok form, impl', table') ↔ ∃ kernel elements,
      ParallelKernel.ofOp? op = some kernel ∧ shapes.DerivedBy op ∧
      (elementCount? (shapes.outputs.headD [])).map UInt64.ofNat = some elements ∧
      form = impl.form (table.compile kernel elements shapes.rowLength).1 shapes ∧
      impl' = { impl with
        compiled := some ((table.compile kernel elements shapes.rowLength).1, shapes) } ∧
      table' = (table.compile kernel elements shapes.rowLength).2 := by
  unfold finalize
  cases hkey : impl.planKey shapes op with
  | error error =>
    refine ⟨fun h ↦ absurd (Prod.mk.inj h).1 error_ne_ok, ?_⟩
    rintro ⟨kernel, elements, hop, hderived, helements, _⟩
    rw [(planKey_eq_ok_iff hkernel).2 ⟨hop, hderived, helements, rfl⟩] at hkey
    cases hkey
  | ok key =>
    obtain ⟨kernel, elements, inner⟩ := key
    obtain ⟨hop, hderived, helements, rfl⟩ := (planKey_eq_ok_iff hkernel).1 hkey
    simp only [Prod.mk.injEq, Except.ok.injEq]
    constructor
    · rintro ⟨rfl, rfl, rfl⟩
      exact ⟨kernel, elements, hop, hderived, helements, rfl, rfl, rfl⟩
    · rintro ⟨kernel', elements', hop', _, helements', rfl, rfl, rfl⟩
      obtain rfl := Option.some.inj (hop.symm.trans hop')
      obtain rfl := Option.some.inj (helements.symm.trans helements')
      exact ⟨rfl, rfl, rfl⟩

end ParallelImplementation

/-! ## The vendor implementation -/

/-- The numbers of a plan are the extents of the operands. -/
def GemmPlan.MadeFor (plan : GemmPlan) (shapes : ConcreteShapes) : Prop :=
  ∃ lhs rhs, shapes.inputs = [lhs, rhs] ∧ plan.spec.extents lhs rhs = .ok (plan.m, plan.k, plan.n)

theorem GemmPlan.MadeFor.unique {plan plan' : GemmPlan} (h : plan.MadeFor shapes)
    (h' : plan'.MadeFor shapes) (hspec : plan.spec = plan'.spec) : plan = plan' := by
  obtain ⟨lhs, rhs, hinputs, hextents⟩ := h
  obtain ⟨_, _, hinputs', hextents'⟩ := h'
  obtain ⟨rfl, rfl⟩ : lhs = _ ∧ rhs = _ := by simpa using hinputs.symm.trans hinputs'
  rw [hspec, hextents'] at hextents
  simp only [Except.ok.injEq, Prod.mk.injEq] at hextents
  obtain ⟨hm, hk, hn⟩ := hextents
  cases plan
  cases plan'
  simp_all

theorem ConcreteShapes.derivedBy_matMul_iff {spec : MatMulSpec} :
    shapes.DerivedBy (.matMul spec) ↔ ∃ lhs rhs m k n, shapes.inputs = [lhs, rhs] ∧
      spec.extents lhs rhs = .ok (m, k, n) ∧ shapes.outputs = [[m, n]] := by
  unfold DerivedBy
  match shapes.inputs with
  | [lhs, rhs] =>
    simp only [OpSpec.outputDims, bind_eq_ok_iff, pure_eq_ok, Except.ok.injEq, Prod.exists]
    constructor
    · rintro ⟨_, ⟨m, k, n, hextents, rfl⟩, hout⟩
      exact ⟨lhs, rhs, m, k, n, rfl, hextents, hout⟩
    · rintro ⟨_, _, m, k, n, hinputs, hextents, hout⟩
      obtain ⟨rfl, rfl⟩ : lhs = _ ∧ rhs = _ := by simpa using hinputs
      exact ⟨_, ⟨m, k, n, hextents, rfl⟩, hout⟩
  | [] => simp [OpSpec.outputDims]
  | [_] => simp [OpSpec.outputDims]
  | _ :: _ :: _ :: _ => simp [OpSpec.outputDims]

namespace GemmImplementation

variable {impl impl' : GemmImplementation} {plan : GemmPlan} {spec : MatMulSpec}

/-- Only matrix products have a vendor implementation. -/
theorem spec_ofNode_eq_some_iff {node : Node} :
    (ofNode node).spec = some spec ↔ node.op = .matMul spec := by
  unfold ofNode
  split <;> simp_all

theorem planFor_eq_ok_iff (hspec : impl.spec = some spec) :
    impl.planFor shapes (.matMul spec) = .ok plan ↔ plan.spec = spec ∧ plan.MadeFor shapes ∧
      shapes.outputs = [[plan.m, plan.n]] := by
  unfold planFor GemmPlan.MadeFor
  simp only [hspec, ne_eq, not_true_eq_false, if_false]
  match shapes.inputs with
  | [lhs, rhs] =>
    simp only [bind_eq_ok_iff, mapError_eq_ok_iff, Prod.exists]
    constructor
    · rintro ⟨m, k, n, hextents, h⟩
      by_cases hout : shapes.outputs = [[m, n]]
      · simp only [hout, not_true_eq_false, if_false, pure_eq_ok, Except.ok.injEq] at h
        subst h
        exact ⟨rfl, ⟨lhs, rhs, rfl, hextents⟩, hout⟩
      · simp [hout] at h
    · rintro ⟨rfl, ⟨_, _, hinputs, hextents⟩, hout⟩
      obtain ⟨rfl, rfl⟩ : lhs = _ ∧ rhs = _ := by simpa using hinputs
      exact ⟨_, _, _, hextents, by simp [hout]⟩
  | [] => simp
  | [_] => simp
  | _ :: _ :: _ :: _ => simp

theorem finalize_eq_ok_iff : impl.finalize shapes op = (.ok form, impl') ↔ ∃ plan,
    impl.planFor shapes op = .ok plan ∧ form = GemmImplementation.form plan shapes ∧
      impl' = { impl with plan := some (plan, shapes) } := by
  unfold finalize
  cases hplan : impl.planFor shapes op with
  | error error => simp
  | ok plan =>
    simp only [Prod.mk.injEq, Except.ok.injEq, exists_eq_left']
    exact and_congr eq_comm eq_comm

end GemmImplementation

/-! ## The catalogue -/

namespace CatalogueImplementation

variable {α ι : Type} {impl : CatalogueImplementation} {env env' : Environment} {a : α}

/-- An answer about an implementation without an environment. -/
theorem pureAnswer_eq_iff {wrap : ι → CatalogueImplementation} {answer : α × ι} :
    pureAnswer wrap env (answer.1, answer.2, ()) = (a, impl, env') ↔
      ∃ impl', answer = (a, impl') ∧ impl = wrap impl' ∧ env' = env := by
  obtain ⟨result, impl'⟩ := answer
  simp only [pureAnswer, Prod.mk.injEq]
  constructor
  · rintro ⟨rfl, rfl, rfl⟩
    exact ⟨impl', ⟨rfl, rfl⟩, rfl, rfl⟩
  · rintro ⟨_, ⟨rfl, rfl⟩, rfl, rfl⟩
    exact ⟨rfl, rfl, rfl⟩

/-- An answer about an implementation that uses the shared plans. -/
theorem planAnswer_eq_iff {wrap : ι → CatalogueImplementation} {answer : α × ι × PlanTable} :
    planAnswer wrap env answer = (a, impl, env') ↔ ∃ impl' table,
      answer = (a, impl', table) ∧ impl = wrap impl' ∧ env' = { env with plans := table } := by
  obtain ⟨result, impl', table⟩ := answer
  simp only [planAnswer, Prod.mk.injEq]
  constructor
  · rintro ⟨rfl, rfl, rfl⟩
    exact ⟨impl', table, ⟨rfl, rfl, rfl⟩, rfl, rfl⟩
  · rintro ⟨_, _, ⟨rfl, rfl, rfl⟩, rfl, rfl⟩
    exact ⟨rfl, rfl, rfl⟩

theorem finalize_reference_eq_ok_iff {reference : ReferenceImplementation} :
    Implementation.finalize (CatalogueImplementation.reference reference) shapes op env =
        (.ok form, impl, env') ↔ ∃ reference', reference.finalize shapes op =
          (.ok form, reference') ∧ impl = .reference reference' ∧ env' = env :=
  pureAnswer_eq_iff

theorem finalize_parallel_eq_ok_iff {parallel : ParallelImplementation} :
    Implementation.finalize (CatalogueImplementation.parallel parallel) shapes op env =
        (.ok form, impl, env') ↔ ∃ parallel' table, parallel.finalize shapes op env.plans =
          (.ok form, parallel', table) ∧ impl = .parallel parallel' ∧
          env' = { env with plans := table } :=
  planAnswer_eq_iff

theorem finalize_gemm_eq_ok_iff {gemm : GemmImplementation} :
    Implementation.finalize (CatalogueImplementation.gemm gemm) shapes op env =
        (.ok form, impl, env') ↔ ∃ gemm', gemm.finalize shapes op = (.ok form, gemm') ∧
          impl = .gemm gemm' ∧ env' = env :=
  pureAnswer_eq_iff

end CatalogueImplementation

end TensorEngine
