import TensorEngine.Instance.Specialization
import TensorEngine.Memory.Pool

/-!
# Execution

One execution visits the places of a graph one after the other.  A visit derives the extents of
the result from those of the operands, makes the instance ready for them and fills its slot: with
the bound value of a parameter, or with what the implementation computes.  Constants were written
when the program was built, and a reshape shares the slot of its operand.  The first failure ends
the execution.
-/

namespace TensorEngine

/-- The values bound to parameters. -/
abbrev Bindings := NodeId → Option HostTensor

namespace Bindings

/-- The bindings of a list of pairs, in which later pairs replace earlier ones. -/
def ofList (pairs : List (NodeId × HostTensor)) : Bindings := fun id ↦ pairs.reverse.lookup id

end Bindings

/-- What an execution consults. -/
structure ExecutionContext (ι : Type) where
  graph : Graph
  /-- The implementations at hand and the device. -/
  specialize : SpecializeContext ι
  bindings : Bindings

/-- What an execution changes. -/
structure ExecutionState (ι ω : Type) where
  instances : List (PrimitiveInstance ι)
  pool : MemoryPool
  /-- The extents of the results of the places visited so far. -/
  extents : List (Option Dims)
  workspace : Workspace ι ω

/-! ## Extents -/

namespace ExecutionContext

variable {ι : Type}

def operandDims (context : ExecutionContext ι) (node : Node) (extents : List (Option Dims)) :
    Except RuntimeError (List Dims) :=
  node.inputs.mapM fun input ↦
    match (context.graph.position? input).bind fun position ↦ extents[position]?.join with
    | some dims => .ok dims
    | none =>
      .error (.invalidGraph s!"extents of {input.text} are unavailable to {node.id.text}")

/-- The extents of a node's result: those of the bound value, or those that the operation derives
from its operands. -/
def resultDims (context : ExecutionContext ι) (node : Node) (inputs : List Dims) :
    Except RuntimeError Dims :=
  if node.kind = .parameter then
    match context.bindings node.id with
    | some binding => .ok binding.dims
    | none => .error (.missingBinding node.id)
  else
    (node.op.outputDims inputs).mapError fun error ↦
      .invalidGraph s!"node {node.id.text}: {error.message}"

/-- The extents of a visit to a node; the result has to stay within its declared shape. -/
def concreteShapes (context : ExecutionContext ι) (node : Node) (extents : List (Option Dims)) :
    Except RuntimeError ConcreteShapes := do
  let inputs ← context.operandDims node extents
  let output ← context.resultDims node inputs
  if node.output.shape.accepts output then return ⟨inputs, [output]⟩
  else throw (.shapeOutOfRange node.id node.output.shape output)

end ExecutionContext

/-! ## Filling slots -/

namespace PrimitiveInstance

variable {ι ω : Type} [Implementation ι ω]

def resultSlot (inst : PrimitiveInstance ι) : Except RuntimeError Nat :=
  match inst.outputSlot with
  | some slot => .ok slot
  | none => .error inst.notReady

/-- Makes room in the slot of the result; an instance that gets none has failed. -/
def reserve (inst : PrimitiveInstance ι) (slot elements : Nat) (pool : MemoryPool) :
    Except RuntimeError MemoryPool × PrimitiveInstance ι :=
  match pool.ensureCapacity slot elements with
  | .ok (_, pool) => (.ok pool, inst)
  | .error error => (.error error.toRuntime, inst.markFailed)

/-- A failed run as a failure of the engine. -/
def executionFailure (inst : PrimitiveInstance ι) (shapes : List Dims) (source : BackendError) :
    RuntimeError :=
  .executionFailure inst.node.id inst.node.kind shapes source

/-- Copies a bound value to the front of the slot. -/
def copyBinding (inst : PrimitiveInstance ι) (binding : HostTensor) (slot : Nat)
    (pool : MemoryPool) : Except RuntimeError MemoryPool := do
  let data ← (pool.read slot).mapError AllocationError.toRuntime
  let data ← (data.copyFrom binding.data).mapError fun error ↦
    inst.executionFailure [binding.dims] (.ofAccess error)
  return pool.set slot data

/-- Fills the slot of a parameter with its bound value. -/
def writeBinding (inst : PrimitiveInstance ι) (bindings : Bindings) (pool : MemoryPool) :
    Except RuntimeError Unit × PrimitiveInstance ι × MemoryPool :=
  match bindings inst.node.id, inst.resultSlot with
  | none, _ => (.error (.missingBinding inst.node.id), inst, pool)
  | some _, .error error => (.error error, inst, pool)
  | some binding, .ok slot =>
    match inst.reserve slot binding.size pool with
    | (.error error, inst) => (.error error, inst, pool)
    | (.ok pool, inst) =>
      match inst.copyBinding binding slot pool with
      | .ok pool => (.ok (), inst, pool)
      | .error error => (.error error, inst, pool)

/-- The arguments of one run of an implementation. -/
structure Dispatch (ι : Type) where
  implementation : ι
  inputs : List TensorView
  slot : Nat
  /-- The result with its old elements. -/
  output : TensorView

/-- The first elements of a slot as a tensor of some extents. -/
def viewOf (data : TensorData) (dims : Dims) : Except BackendError TensorView :=
  match elementCount? dims with
  | none => .error (.execution s!"extents {dimsText dims} overflow")
  | some count => do
    let elements ← (data.view count).mapError .ofAccess
    return ⟨dims, elements⟩

/-- A missing slot as a failure of the run. -/
def slotError (error : AllocationError) : BackendError := .execution error.toRuntime.message

/-- Gathers the arguments of a run; the result must not share a slot with an operand. -/
def dispatch (inst : PrimitiveInstance ι) (shapes : ConcreteShapes) (pool : MemoryPool) :
    Except BackendError (Dispatch ι) := do
  let some implementation := inst.implementation?
    | throw (.execution "instance has no bound implementation")
  let some slot := inst.outputSlot
    | throw (.execution "instance has no output slot")
  if slot ∈ inst.inputSlots then
    throw (.execution s!"output slot {slot} is also read by the same instance")
  let operands ← inst.inputSlots.mapM fun slot ↦ (pool.read slot).mapError slotError
  let result ← (pool.read slot).mapError slotError
  let inputs ← (operands.zip shapes.inputs).mapM fun (data, dims) ↦ viewOf data dims
  let some dims := shapes.outputs.head?
    | throw (.execution "missing output extents")
  let output ← viewOf result dims
  return ⟨implementation, inputs, slot, output⟩

/-- A fault of a run as a failure; an implementation that breaks down leaves the device in an
unknown state. -/
def faultError (name : String) : Fault → BackendError
  | .refused error => error
  | .panicked message => .corrupted s!"{name} panicked: {message}"

/-- Writes elements to the front of a slot. -/
def writeBack (pool : MemoryPool) (slot : Nat) (outputs : List TensorData) : MemoryPool :=
  match pool.slots[slot]?, outputs.head? with
  | some data, some new => pool.set slot (data.overwrite new)
  | _, _ => pool

/-- Runs the bound implementation on the slots. -/
def runKernel (inst : PrimitiveInstance ι) (shapes : ConcreteShapes) (pool : MemoryPool)
    (env : ω) : Except BackendError Unit × MemoryPool × ω :=
  match inst.dispatch shapes pool with
  | .error error => (.error error, pool, env)
  | .ok call =>
    let (result, outputs, env) :=
      Implementation.execute call.implementation call.inputs [call.output] env
    (result.mapError (faultError (Implementation.name call.implementation)),
      writeBack pool call.slot outputs, env)

/-- Where the result of a run goes, once its number of elements is known. -/
def target (inst : PrimitiveInstance ι) (shapes : ConcreteShapes) :
    Except RuntimeError (Nat × Nat) := do
  let dims := shapes.outputs.headD []
  let some elements := elementCount? dims
    | throw (.shapeOutOfRange inst.node.id inst.node.output.shape dims)
  return (← inst.resultSlot, elements)

/-- Fills the slot of an executable node. -/
def execute (inst : PrimitiveInstance ι) (shapes : ConcreteShapes) (pool : MemoryPool)
    (env : ω) : Except RuntimeError Unit × PrimitiveInstance ι × MemoryPool × ω :=
  match inst.target shapes with
  | .error error => (.error error, inst, pool, env)
  | .ok (slot, elements) =>
    match inst.reserve slot elements pool with
    | (.error error, inst) => (.error error, inst, pool, env)
    | (.ok pool, inst) =>
      match inst.beginExecute with
      | .error error => (.error error, inst, pool, env)
      | .ok inst =>
        match inst.runKernel shapes pool env with
        | (.ok (), pool, env) => (.ok (), inst.finishExecute, pool, env)
        | (.error source, pool, env) =>
          (.error (inst.executionFailure shapes.all source),
            if source.isCorrupting then inst.markFailed else inst.abortExecute, pool, env)

/-- Fills the slot of a node in the way that its kind asks for. -/
def fill (inst : PrimitiveInstance ι) (shapes : ConcreteShapes) (bindings : Bindings)
    (pool : MemoryPool) (env : ω) :
    Except RuntimeError Unit × PrimitiveInstance ι × MemoryPool × ω :=
  match inst.node.kind with
  | .parameter =>
    let (result, inst, pool) := inst.writeBinding bindings pool
    (result, inst, pool, env)
  | .constant | .reshape => (.ok (), inst, pool, env)
  | .elementwiseBinary | .elementwiseUnary | .matMul | .reduce | .reorder =>
    inst.execute shapes pool env

end PrimitiveInstance

/-! ## Visits -/

namespace ExecutionState

variable {ι ω : Type} [Implementation ι ω]

def visit (context : ExecutionContext ι) (state : ExecutionState ι ω) (position : Nat) :
    Except RuntimeError Unit × ExecutionState ι ω :=
  match state.instances[position]? with
  | none => (.ok (), state)
  | some inst =>
    match context.concreteShapes inst.node state.extents with
    | .error error => (.error error, state)
    | .ok shapes =>
      match inst.prepare shapes context.specialize state.workspace with
      | (.error error, inst, workspace) =>
        let inst := if error.poisonsProgram then inst.markFailed else inst
        (.error error, { state with instances := state.instances.set position inst, workspace })
      | (.ok _, inst, workspace) =>
        let (result, inst, pool, env) :=
          inst.fill shapes context.bindings state.pool workspace.environment
        let state := { state with
          instances := state.instances.set position inst
          pool
          workspace := workspace.withEnvironment env }
        match result with
        | .error error => (.error error, state)
        | .ok () =>
          (.ok (), { state with extents := state.extents.set position shapes.outputs.head? })

/-- Visits places in order.  In front of each visit, `cancelled` is asked with the number of
places completed before. -/
def visitAll (context : ExecutionContext ι) (cancelled : Nat → ω → Bool) (completed : Nat)
    (state : ExecutionState ι ω) : List Nat → Except RuntimeError Unit × ExecutionState ι ω
  | [] => (.ok (), state)
  | position :: rest =>
    if cancelled completed state.workspace.environment then (.error (.aborted completed), state)
    else
      match state.visit context position with
      | (.ok (), state) => visitAll context cancelled (completed + 1) state rest
      | (.error error, state) => (.error error, state)

/-- Visits all places in the order of the graph.  Queues keep this order and waits point
backwards in it, so it is one of the orders that any number of streams may take. -/
def run (context : ExecutionContext ι) (cancelled : Nat → ω → Bool)
    (state : ExecutionState ι ω) : Except RuntimeError Unit × ExecutionState ι ω :=
  state.visitAll context cancelled 0 (List.range context.graph.size)

end ExecutionState

end TensorEngine
