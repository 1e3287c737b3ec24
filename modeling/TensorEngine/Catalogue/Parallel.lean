import TensorEngine.Kernel.Chunked
import TensorEngine.Registry

/-!
# Parallel implementations

Elementwise operations and reductions of floating-point numbers, cut into chunks for several
threads.  The size of the chunks is part of a plan; plans are shared by all implementations of an
environment, and the first plan for a kernel and its extents stays.
-/

namespace TensorEngine

open Wire

/-- What a parallel implementation runs. -/
inductive ParallelKernel where
  | binary (op : BinaryOp)
  | unary (op : UnaryOp)
  | reduce (spec : ReduceSpec)
deriving DecidableEq, Repr, Inhabited

namespace ParallelKernel

def ofOp? : OpSpec → Option ParallelKernel
  | .binary op => some (.binary op)
  | .unary op => some (.unary op)
  | .reduce spec => some (.reduce spec)
  | _ => none

def text : ParallelKernel → String
  | .binary op => Text.applied "Binary" [op.name]
  | .unary op => Text.applied "Unary" [op.name]
  | .reduce spec => Text.applied "Reduce" [spec.text]

instance : Encode ParallelKernel where
  encode
    | .binary op => encodeTag 0 ++ encode op
    | .unary op => encodeTag 1 ++ encode op
    | .reduce spec => encodeTag 2 ++ encode spec

instance : Decode ParallelKernel where
  read := do
    match ← readTag with
    | 0 => return .binary (← Decode.read)
    | 1 => return .unary (← Decode.read)
    | 2 => return .reduce (← Decode.read)
    | tag => throw (.unknownVariant tag 3)

end ParallelKernel

/-! ## Plans -/

/-- What a chunked kernel needs to know. -/
structure KernelPlan where
  kernel : ParallelKernel
  elements : Extent
  /-- The innermost extent of the first operand; the length of a row. -/
  inner : Extent
  /-- The elements of the result in one chunk. -/
  chunk : Extent
deriving DecidableEq, Repr, Inhabited

namespace KernelPlan

instance : Encode KernelPlan where
  encode plan :=
    encode plan.kernel ++ encode plan.elements ++ encode plan.inner ++ encode plan.chunk

instance : Decode KernelPlan :=
  ⟨return ⟨← Decode.read, ← Decode.read, ← Decode.read, ← Decode.read⟩⟩

/-- The fewest elements that are worth a chunk of rows of one element. -/
def minTaskElements : Nat := 4096

/-- The size of the chunks: four per thread, but none too small, and never empty. -/
def taskChunk (elements inner threads : Nat) : Nat :=
  max (max (Size.ceilDiv elements (max threads 1 * 4)) (minTaskElements / max inner 1)) 1

end KernelPlan

/-- The plans made so far, in an environment with some number of threads. -/
structure PlanTable where
  threads : Nat := 4
  /-- The plans; no two for the same kernel, elements and innermost extent. -/
  plans : List KernelPlan := []
deriving DecidableEq, Repr, Inhabited

namespace PlanTable

def find? (table : PlanTable) (kernel : ParallelKernel) (elements inner : Extent) :
    Option KernelPlan :=
  table.plans.find? fun plan ↦
    plan.kernel = kernel && plan.elements = elements && plan.inner = inner

/-- The plan for the same kernel and extents; a plan that is there already stays. -/
def adopt (table : PlanTable) (plan : KernelPlan) : KernelPlan × PlanTable :=
  match table.find? plan.kernel plan.elements plan.inner with
  | some known => (known, table)
  | none => (plan, { table with plans := table.plans ++ [plan] })

/-- The plan for a kernel and its extents; a new one is made for the threads at hand. -/
def compile (table : PlanTable) (kernel : ParallelKernel) (elements inner : Extent) :
    KernelPlan × PlanTable :=
  table.adopt ⟨kernel, elements, inner,
    UInt64.ofNat (KernelPlan.taskChunk elements.toNat inner.toNat table.threads)⟩

end PlanTable

/-! ## Implementations -/

structure ParallelImplementation where
  name : String
  /-- What it runs; none for an operation without a parallel kernel. -/
  kernel : Option ParallelKernel
  /-- The plan and the extents, once it is finalized. -/
  compiled : Option (KernelPlan × ConcreteShapes) := none
deriving DecidableEq, Repr, Inhabited

namespace ParallelImplementation

def nameOf : OperationKind → String
  | .elementwiseBinary => "parallel.elementwise_binary"
  | .elementwiseUnary => "parallel.elementwise_unary"
  | .reduce => "parallel.reduce"
  | _ => "parallel.unsupported"

def ofNode (node : Node) : ParallelImplementation :=
  { name := nameOf node.kind, kernel := ParallelKernel.ofOp? node.op }

/-- Whether there is a kernel and all layouts hold floating-point numbers along some axis. -/
def supports (impl : ParallelImplementation) (inputs outputs : List Layout) : Bool :=
  impl.kernel.isSome && (inputs ++ outputs).all fun layout ↦
    layout.dtype = .f32 && 0 < layout.shape.rank

def form (impl : ParallelImplementation) (plan : KernelPlan) (shapes : ConcreteShapes) :
    FinalizedForm :=
  .ofParams impl.name shapes (encode plan)

/-- The kernel, the elements of the result and the innermost extent of the first operand, when
the implementation can run the operation on these extents. -/
def planKey (impl : ParallelImplementation) (shapes : ConcreteShapes) (op : OpSpec) :
    Except BackendError (ParallelKernel × Extent × Extent) := do
  let some kernel := impl.kernel
    | throw (.unimplemented "parallel" "operation has no parallel kernel")
  if ParallelKernel.ofOp? op ≠ some kernel then
    throw (.unimplemented "parallel" s!"{kernel.text} instance cannot run {op.kind.name}")
  let expected ← (op.outputDims shapes.inputs).mapError fun error ↦
    .unimplemented "parallel" error.message
  if shapes.outputs ≠ [expected] then
    throw (.execution
      s!"declared outputs {shapesText shapes.outputs} disagree with inferred {dimsText expected}")
  let some elements := elementCount? expected
    | throw (.execution s!"extents {dimsText expected} overflow")
  return (kernel, UInt64.ofNat elements, (shapes.inputs.head?.bind List.getLast?).getD 1)

def finalize (impl : ParallelImplementation) (shapes : ConcreteShapes) (op : OpSpec)
    (table : PlanTable) :
    Except BackendError FinalizedForm × ParallelImplementation × PlanTable :=
  match impl.planKey shapes op with
  | .error error => (.error error, impl, table)
  | .ok (kernel, elements, inner) =>
    let (plan, table) := table.compile kernel elements inner
    (.ok (impl.form plan shapes), { impl with compiled := some (plan, shapes) }, table)

/-- The elements of an argument as floating-point numbers. -/
def floats (view : TensorView) : Except BackendError (Array F32) :=
  view.data.asF32.mapError .ofAccess

/-- Runs a plan on its operands; the result has the elements `out`. -/
def runPlan (plan : KernelPlan) (inputs : List TensorView) (out : Array F32) :
    Kernel.Outcome (Array F32) :=
  if out.size ≠ plan.elements.toNat then
    .refuse (.execution s!"output holds {out.size} elements, plan expects {plan.elements}") out
  else
    match plan.kernel, inputs with
    | .binary op, [lhs, rhs] =>
      match floats lhs, floats rhs with
      | .ok lhs, .ok rhs => Kernel.zipWithChunked op.applyF32 plan.chunk.toNat lhs rhs out
      | .error error, _ | .ok _, .error error => .refuse error out
    | .unary op, [input] =>
      match floats input with
      | .ok input => Kernel.mapChunked op.applyF32 plan.chunk.toNat input out
      | .error error => .refuse error out
    | .reduce spec, [input] =>
      match floats input with
      | .ok input =>
        Kernel.reduceChunked spec.kind.rowF32 plan.chunk.toNat plan.inner.toNat input out
      | .error error => .refuse error out
    | kernel, inputs => .refuse (.execution s!"{kernel.text} got {inputs.length} inputs") out

def execute (impl : ParallelImplementation) (inputs outputs : List TensorView) :
    Except Fault Unit × List TensorData :=
  let old := outputs.map TensorView.data
  match impl.compiled with
  | none => (.error (.refused (.execution s!"{impl.name} executed before finalize")), old)
  | some (plan, _) =>
    match outputs with
    | [out] =>
      match floats out with
      | .ok out =>
        let outcome := runPlan plan inputs out
        (outcome.ended, [.f32 outcome.out])
      | .error error => (.error (.refused error), old)
    | _ => (.error (.refused (.execution "expected exactly one output")), old)

/-- The written form: the plan and the extents. -/
def serialize (impl : ParallelImplementation) : Except BackendError Bytes :=
  match impl.compiled with
  | some compiled => .ok (encode compiled)
  | none => .error (.payload "instance is not finalized")

/-- The text of a kernel that may be missing. -/
def kernelText (kernel : Option ParallelKernel) : String :=
  Text.option (kernel.map ParallelKernel.text)

/-- Takes over a written form of the same kernel. -/
def deserialize (impl : ParallelImplementation) (payload : Bytes) (table : PlanTable) :
    Except BackendError FinalizedForm × ParallelImplementation × PlanTable :=
  match (decode payload : Except Wire.Error (KernelPlan × ConcreteShapes)) with
  | .error error => (.error (.ofWire error), impl, table)
  | .ok (plan, shapes) =>
    if some plan.kernel ≠ impl.kernel then
      (.error (.payload
        s!"payload holds {plan.kernel.text}, node needs {kernelText impl.kernel}"), impl, table)
    else
      let (plan, table) := table.adopt plan
      (.ok (impl.form plan shapes), { impl with compiled := some (plan, shapes) }, table)

instance : Implementation ParallelImplementation PlanTable where
  name := name
  backend _ := .genericKernel
  supports := supports
  finalize := finalize
  execute impl inputs outputs table :=
    let (result, outputs) := impl.execute inputs outputs
    (result, outputs, table)
  serialize := serialize
  deserialize := deserialize

def descriptor (kind : OperationKind) : Descriptor ParallelImplementation :=
  { name := nameOf kind
    op := kind
    backend := .genericKernel
    priority := 10
    supported := Descriptor.pairings [.f32] [.rowMajor, .nhwc]
    instantiate := ofNode }

/-- The descriptors of all kinds that have a parallel kernel. -/
def descriptors : List (Descriptor ParallelImplementation) :=
  [.elementwiseBinary, .elementwiseUnary, .reduce].map descriptor

end ParallelImplementation

end TensorEngine
