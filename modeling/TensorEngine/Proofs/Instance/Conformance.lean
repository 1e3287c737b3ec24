import TensorEngine.Program
import TensorEngine.Proofs.Graph.Order
import TensorEngine.Proofs.Instance.Finalizing
import TensorEngine.Proofs.Kernel.Chunked
import TensorEngine.Proofs.Operation.Count

/-!
# Implementations that compute what the reference computes

The reference implementations, the parallel ones and the bounded one are interchangeable: once one
of them is finalized for the extents of a run, and the arguments have these extents, it ends like
the reference kernel and leaves the same elements.
-/

namespace TensorEngine

open Kernel

/-! ## Plans -/

namespace KernelPlan

/-- The chunks of a plan have the size that some number of threads asks for. -/
def Chunked (plan : KernelPlan) : Prop := ∃ threads,
  plan.chunk = UInt64.ofNat (taskChunk plan.elements.toNat plan.inner.toNat threads)

theorem taskChunk_pos {elements inner threads : Nat} : 0 < taskChunk elements inner threads :=
  Nat.lt_of_lt_of_le Nat.one_pos (Nat.le_max_right _ _)

private theorem ceilDiv_le {a d : Nat} (hd : 0 < d) : Size.ceilDiv a d ≤ a := by
  unfold Size.ceilDiv
  rcases Nat.eq_zero_or_pos a with rfl | ha
  · exact Nat.le_of_eq (by rw [Nat.zero_add, Nat.div_eq_of_lt (by omega)])
  · have hmul : a + d - 1 ≤ d * a := by
      obtain ⟨m, rfl⟩ : ∃ m, a = m + 1 := ⟨a - 1, by omega⟩
      have hle : m ≤ d * m := Nat.le_mul_of_pos_left _ hd
      rw [Nat.mul_succ]
      omega
    exact Nat.div_le_of_le_mul hmul

/-- A chunk is not larger than the result, apart from small ones. -/
theorem taskChunk_le {elements inner threads : Nat} :
    taskChunk elements inner threads ≤ max elements minTaskElements := by
  have hceil := ceilDiv_le (a := elements) (d := max threads 1 * 4) (by omega)
  have hrow : minTaskElements / max inner 1 ≤ minTaskElements := Nat.div_le_self _ _
  have hsmall : 1 ≤ minTaskElements := by decide
  unfold taskChunk
  omega

/-- The rows of a chunk are not more elements than the operand has, apart from small chunks. -/
theorem taskChunk_mul_lt {elements inner threads : Nat} (hinner : inner < Size.wordCount)
    (hmul : elements * inner < Size.wordCount) :
    taskChunk elements inner threads * inner < Size.wordCount := by
  have hceil := ceilDiv_le (a := elements) (d := max threads 1 * 4) (by omega)
  have hrow : minTaskElements / max inner 1 * inner ≤ minTaskElements :=
    Nat.le_trans (Nat.mul_le_mul_left _ (Nat.le_max_left inner 1)) (Nat.div_mul_le_self _ _)
  have hsmall : minTaskElements < Size.wordCount := by decide
  unfold taskChunk
  rcases Nat.le_total (max (Size.ceilDiv elements (max threads 1 * 4))
      (minTaskElements / max inner 1)) 1 with h | h
  · rw [Nat.max_eq_right h, Nat.one_mul]
    exact hinner
  · rw [Nat.max_eq_left h]
    rcases Nat.le_total (Size.ceilDiv elements (max threads 1 * 4))
      (minTaskElements / max inner 1) with h' | h'
    · rw [Nat.max_eq_right h']
      omega
    · rw [Nat.max_eq_left h']
      exact Nat.lt_of_le_of_lt (Nat.mul_le_mul_right _ hceil) hmul

/-- The size of the chunks fits a word. -/
theorem Chunked.toNat_chunk {plan : KernelPlan} (h : plan.Chunked) : ∃ threads,
    plan.chunk.toNat = taskChunk plan.elements.toNat plan.inner.toNat threads := by
  obtain ⟨threads, hchunk⟩ := h
  refine ⟨threads, ?_⟩
  rw [hchunk]
  refine UInt64.toNat_ofNat_of_lt' (Nat.lt_of_le_of_lt taskChunk_le ?_)
  have helements := plan.elements.toNat_lt
  have hsmall : minTaskElements < 2 ^ 64 := by decide
  rw [Nat.max_lt]
  exact ⟨helements, hsmall⟩

/-- A run by the plan does not break down: chunks have elements, unless they are of rows that have
none, and where a word counts the elements of all rows, it counts those of a chunk. -/
structure Runnable (plan : KernelPlan) : Prop where
  chunk_eq_zero : plan.chunk.toNat = 0 → ∃ spec, plan.kernel = .reduce spec ∧ plan.inner.toNat = 0
  rows_lt : ∀ spec, plan.kernel = .reduce spec →
    plan.elements.toNat * plan.inner.toNat < Size.wordCount →
      plan.chunk.toNat * plan.inner.toNat < Size.wordCount

theorem Chunked.runnable {plan : KernelPlan} (h : plan.Chunked) : plan.Runnable := by
  obtain ⟨threads, hchunk⟩ := h.toNat_chunk
  refine ⟨fun hzero ↦ absurd (hchunk.symm.trans hzero) (Nat.ne_of_gt taskChunk_pos),
    fun _ _ hrows ↦ ?_⟩
  rw [hchunk]
  exact taskChunk_mul_lt plan.inner.toNat_lt hrows

end KernelPlan

namespace PlanTable

/-- All plans have chunks of a size that some number of threads asks for. -/
def Compiled (table : PlanTable) : Prop := ∀ plan ∈ table.plans, plan.Chunked

/-- No run by a plan breaks down. -/
def Runnable (table : PlanTable) : Prop := ∀ plan ∈ table.plans, plan.Runnable

variable {table : PlanTable}

theorem Compiled.runnable (h : table.Compiled) : table.Runnable :=
  fun plan hplan ↦ (h plan hplan).runnable

/-- What all shared plans have, and a new one, is kept when plans are asked for. -/
theorem adopt_preserves {P : KernelPlan → Prop} {plan : KernelPlan}
    (h : ∀ plan ∈ table.plans, P plan) (hplan : P plan) :
    (∀ other ∈ (table.adopt plan).2.plans, P other) ∧ P (table.adopt plan).1 := by
  unfold adopt
  split
  · rename_i known hknown
    exact ⟨h, h known (find?_eq_some hknown).1⟩
  · refine ⟨fun other hother ↦ ?_, hplan⟩
    rcases List.mem_append.1 hother with hother | hother
    · exact h other hother
    · exact List.mem_singleton.1 hother ▸ hplan

theorem Compiled.compile (h : table.Compiled) (kernel : ParallelKernel) (elements inner : Extent) :
    (table.compile kernel elements inner).2.Compiled ∧
      (table.compile kernel elements inner).1.Chunked :=
  adopt_preserves h ⟨table.threads, rfl⟩

theorem Runnable.compile (h : table.Runnable) (kernel : ParallelKernel) (elements inner : Extent) :
    (table.compile kernel elements inner).2.Runnable ∧
      (table.compile kernel elements inner).1.Runnable :=
  adopt_preserves h (KernelPlan.Chunked.runnable ⟨table.threads, rfl⟩)

end PlanTable

namespace CatalogueImplementation

variable {node : Node} {declared : List Layout} {shapes : ConcreteShapes}
  {impl : CatalogueImplementation} {env : Environment}

/-- The implementation was created for the operation of the node. -/
def Conforms (node : Node) : CatalogueImplementation → Prop
  | .reference impl => impl.kernel = .ofOp node.op
  | .parallel impl => impl.kernel = ParallelKernel.ofOp? node.op
  | .limited impl => impl = .ofNode node
  | .gemm _ | .failing _ | .scripted _ => False

/-- What was created for a node was created for its operation. -/
theorem Conforms.congr {other : Node} (h : Conforms node impl) (hop : node.op = other.op) :
    Conforms other impl := by
  cases impl with
  | reference impl => exact h.trans (congrArg _ hop)
  | parallel impl => exact h.trans (congrArg _ hop)
  | limited impl =>
    simp only [Conforms, LimitedImplementation.ofNode, hop] at h ⊢
    exact h
  | gemm | failing | scripted => exact h

/-- Operands and results are all declared as floating-point numbers. -/
def AllFloat (node : Node) (declared : List Layout) : Prop :=
  ∀ layout ∈ declared ++ node.outputs, layout.dtype = .f32

/-- The implementation is ready to run the node, whose operands are declared as given, for some
extents. -/
def Serves (node : Node) (declared : List Layout) (shapes : ConcreteShapes) :
    CatalogueImplementation → Prop
  | .reference impl => impl.kernel = .ofOp node.op ∧ impl.shapes.isSome = true
  | .parallel impl => AllFloat node declared ∧ ∃ kernel dims count plan planned,
      impl.kernel = some kernel ∧ ParallelKernel.ofOp? node.op = some kernel ∧
      impl.compiled = some (plan, planned) ∧ plan.kernel = kernel ∧
      node.op.outputDims shapes.inputs = .ok dims ∧ elementCount? dims = some count ∧
      plan.elements = UInt64.ofNat count ∧
      plan.inner = (shapes.inputs.head?.bind List.getLast?).getD 1 ∧ plan.Runnable
  | .limited impl => AllFloat node declared ∧ impl = .ofNode node ∧ impl.op.isSome = true
  | .gemm _ | .failing _ | .scripted _ => False

theorem Serves.conforms (h : Serves node declared shapes impl) : Conforms node impl := by
  cases impl with
  | reference impl => exact h.1
  | parallel impl =>
    obtain ⟨_, kernel, _, _, _, _, hkernel, hop, _⟩ := h
    exact hkernel.trans hop.symm
  | limited impl => exact h.2.1
  | gemm | failing | scripted => exact h

/-- What the implementation serves depends on the operation and the declared layouts alone. -/
theorem Serves.congr {other : Node} (h : Serves node declared shapes impl)
    (hop : node.op = other.op) (hout : node.outputs = other.outputs) :
    Serves other declared shapes impl := by
  cases impl with
  | reference impl => exact ⟨hop ▸ h.1, h.2⟩
  | parallel impl =>
    simp only [Serves, AllFloat, hop, hout] at h ⊢
    exact h
  | limited impl =>
    simp only [Serves, AllFloat, LimitedImplementation.ofNode, hop, hout] at h ⊢
    exact h
  | gemm | failing | scripted => exact h

/-! ## Descriptors -/

/-- The descriptors of implementations that compute what the reference computes. -/
def exactDescriptors : List (Descriptor CatalogueImplementation) :=
  referenceDescriptors ++ parallelDescriptors ++ [limitedDescriptor]

/-- Their implementations belong to the node that they were created for. -/
theorem conforms_instantiate (node : Node) {descriptor : Descriptor CatalogueImplementation}
    (h : descriptor ∈ exactDescriptors) :
    Conforms node (descriptor.instantiate node) ∧
      (descriptor.instantiate node).backend = descriptor.backend := by
  rcases List.mem_append.1 h with h | h
  · rcases List.mem_append.1 h with h | h
    · obtain ⟨reference, hmem, rfl⟩ := List.mem_map.1 h
      obtain ⟨kind, _, rfl⟩ := List.mem_map.1 hmem
      exact ⟨rfl, rfl⟩
    · obtain ⟨parallel, hmem, rfl⟩ := List.mem_map.1 h
      obtain ⟨kind, _, rfl⟩ := List.mem_map.1 hmem
      exact ⟨rfl, rfl⟩
  · obtain rfl := List.mem_singleton.1 h
    exact ⟨rfl, rfl⟩

/-! ## Supported layouts -/

/-- Pinning a layout keeps its element type. -/
theorem all_pin (test : DType → Bool) {layouts : List Layout} {dims : List Dims} :
    dims.length = layouts.length →
      ((ConcreteShapes.pin layouts dims).all (fun layout ↦ test layout.dtype) = true ↔
        ∀ layout ∈ layouts, test layout.dtype = true) := by
  induction layouts generalizing dims with
  | nil => simp [ConcreteShapes.pin]
  | cons layout layouts ih =>
    intro hlen
    cases dims with
    | nil => simp at hlen
    | cons first dims =>
      rw [ConcreteShapes.pin, List.zip_cons_cons, List.map_cons, List.all_cons, Bool.and_eq_true,
        List.forall_mem_cons, ← ih (Nat.succ.inj hlen)]
      rfl

private theorem allFloat_of_pin (hin : shapes.inputs.length = declared.length)
    (hout : shapes.outputs.length = node.outputs.length)
    (h : (ConcreteShapes.pin declared shapes.inputs ++
      ConcreteShapes.pin node.outputs shapes.outputs).all
        (fun layout ↦ decide (layout.dtype = .f32)) = true) : AllFloat node declared := by
  rw [List.all_append, Bool.and_eq_true, all_pin (fun dtype ↦ decide (dtype = .f32)) hin,
    all_pin (fun dtype ↦ decide (dtype = .f32)) hout] at h
  intro layout hlayout
  rcases List.mem_append.1 hlayout with hlayout | hlayout
  · exact of_decide_eq_true (h.1 layout hlayout)
  · exact of_decide_eq_true (h.2 layout hlayout)

/-! ## Finalizing -/

/-- A finalization for given extents leaves an implementation of the node, and one that serves
these extents when it succeeds. -/
structure Finalizes (node : Node) (declared : List Layout) (shapes : ConcreteShapes)
    (impl : CatalogueImplementation) (env : Environment)
    (answer : Except BackendError FinalizedForm × CatalogueImplementation × Environment) :
    Prop where
  runnable : env.plans.Runnable → answer.2.2.plans.Runnable
  conforms : Conforms node answer.2.1
  backend_eq : answer.2.1.backend = impl.backend
  serves : ∀ form, answer.1 = .ok form →
    form.shapes = shapes ∧ Serves node declared shapes answer.2.1

private theorem finalizes_reference {reference : ReferenceImplementation}
    (hkernel : reference.kernel = .ofOp node.op) :
    Finalizes node declared shapes (.reference reference) env
      (Implementation.finalize (.reference reference) shapes node.op env) := by
  show Finalizes node declared shapes (.reference reference) env
    (pureAnswer .reference env ((reference.finalize shapes node.op).1,
      (reference.finalize shapes node.op).2, ()))
  unfold ReferenceImplementation.finalize
  cases hform : reference.formFor shapes node.op with
  | error error => exact ⟨id, hkernel, rfl, nofun⟩
  | ok form =>
    refine ⟨id, hkernel, rfl, fun form' hform' ↦ ⟨?_, hkernel, rfl⟩⟩
    obtain rfl : form = form' := Except.ok.inj hform'
    obtain ⟨_, rfl⟩ := (ReferenceImplementation.formFor_eq_ok_iff hkernel).1 hform
    rfl

private theorem finalizes_parallel {parallel : ParallelImplementation}
    (hkernel : parallel.kernel = ParallelKernel.ofOp? node.op) (henv : env.plans.Runnable)
    (hfloat : AllFloat node declared) :
    Finalizes node declared shapes (.parallel parallel) env
      (Implementation.finalize (.parallel parallel) shapes node.op env) := by
  show Finalizes node declared shapes (.parallel parallel) env
    (planAnswer .parallel env (parallel.finalize shapes node.op env.plans))
  unfold ParallelImplementation.finalize
  cases hkey : parallel.planKey shapes node.op with
  | error error => exact ⟨id, hkernel, rfl, nofun⟩
  | ok key =>
    obtain ⟨kernel, elements, inner⟩ := key
    obtain ⟨hplan, helements, hinner⟩ := env.plans.compile_fst kernel elements inner
    obtain ⟨htable, hrunnable⟩ := henv.compile kernel elements inner
    obtain ⟨hop, ⟨dims, hdims, hout⟩, hcount, rfl⟩ :=
      (ParallelImplementation.planKey_eq_ok_iff hkernel).1 hkey
    rw [hout, List.headD_cons, Option.map_eq_some_iff] at hcount
    obtain ⟨count, hcount, rfl⟩ := hcount
    refine ⟨fun _ ↦ htable, hkernel, rfl, fun form hform ↦ ?_⟩
    obtain rfl := Except.ok.inj hform
    exact ⟨rfl, hfloat, kernel, dims, count, _, shapes, hkernel.trans hop, hop, rfl, hplan, hdims,
      hcount, helements, hinner, hrunnable⟩

/-- Finalizing an implementation of a node that takes the extents. -/
theorem finalizes (env : Environment) (hconforms : Conforms node impl)
    (henv : impl.backend = .reference ∨ env.plans.Runnable)
    (hin : shapes.inputs.length = declared.length)
    (hout : shapes.outputs.length = node.outputs.length)
    (hsupports : Implementation.supports impl (ConcreteShapes.pin declared shapes.inputs)
      (ConcreteShapes.pin node.outputs shapes.outputs) = true) :
    Finalizes node declared shapes impl env (Implementation.finalize impl shapes node.op env) := by
  cases impl with
  | reference reference => exact finalizes_reference hconforms
  | parallel parallel =>
    refine finalizes_parallel hconforms (henv.resolve_left nofun) (allFloat_of_pin hin hout ?_)
    change parallel.supports _ _ = true at hsupports
    unfold ParallelImplementation.supports at hsupports
    rw [Bool.and_eq_true, List.all_eq_true] at hsupports
    rw [List.all_eq_true]
    intro layout hlayout
    exact (Bool.and_eq_true _ _ ▸ hsupports.2 layout hlayout).1
  | limited limited =>
    change limited.supports _ _ = true at hsupports
    unfold LimitedImplementation.supports at hsupports
    rw [Bool.and_eq_true, List.all_eq_true] at hsupports
    refine ⟨id, hconforms, rfl, fun form hform ↦ ?_⟩
    obtain rfl := Except.ok.inj hform
    refine ⟨rfl, allFloat_of_pin hin hout ?_, hconforms, hsupports.1⟩
    rw [List.all_eq_true]
    intro layout hlayout
    exact (Bool.and_eq_true _ _ ▸ hsupports.2 layout hlayout).1
  | gemm | failing | scripted => exact hconforms.elim

end CatalogueImplementation

end TensorEngine
