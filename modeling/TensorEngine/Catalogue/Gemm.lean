import TensorEngine.Kernel.Gemm
import TensorEngine.Registry

/-!
# The vendor implementation

Matrix products of floating-point numbers in row-major order.
-/

namespace TensorEngine

open Wire

/-- A matrix product with its plan. -/
structure GemmImplementation where
  /-- The product; none for another operation. -/
  spec : Option MatMulSpec
  /-- The plan and the extents, once it is finalized. -/
  plan : Option (GemmPlan × ConcreteShapes) := none
deriving DecidableEq, Repr, Inhabited

namespace GemmImplementation

def kernelName : String := "faer.matmul"

def ofNode (node : Node) : GemmImplementation :=
  { spec := match node.op with
      | .matMul spec => some spec
      | _ => none }

/-- Whether all layouts are row-major matrices of floating-point numbers. -/
def supports (impl : GemmImplementation) (inputs outputs : List Layout) : Bool :=
  impl.spec.isSome && (inputs ++ outputs).all fun layout ↦
    layout.dtype = .f32 && layout.format = .rowMajor && layout.shape.rank = 2

def form (plan : GemmPlan) (shapes : ConcreteShapes) : FinalizedForm :=
  .ofParams kernelName shapes (encode plan)

/-- The plan for some extents, when the implementation can run the operation on them. -/
def planFor (impl : GemmImplementation) (shapes : ConcreteShapes) (op : OpSpec) :
    Except BackendError GemmPlan := do
  let some spec := impl.spec
    | throw (.unimplemented "faer" "only MatMul is backed by faer")
  if op ≠ .matMul spec then
    throw (.unimplemented "faer" s!"cannot run {op.kind.name}")
  match shapes.inputs with
  | [lhs, rhs] =>
    let (m, k, n) ← (spec.extents lhs rhs).mapError fun error ↦ .execution error.message
    if shapes.outputs ≠ [[m, n]] then
      throw (.execution
        s!"declared outputs {shapesText shapes.outputs} disagree with {dimsText [m, n]}")
    return ⟨spec, m, k, n⟩
  | _ => throw (.execution "matmul expects two input shapes")

def finalize (impl : GemmImplementation) (shapes : ConcreteShapes) (op : OpSpec) :
    Except BackendError FinalizedForm × GemmImplementation :=
  match impl.planFor shapes op with
  | .ok plan => (.ok (form plan shapes), { impl with plan := some (plan, shapes) })
  | .error error => (.error error, impl)

/-- Runs a plan on operands and result. -/
def runPlan (plan : GemmPlan) (lhs rhs out : TensorView) : Kernel.Outcome TensorData :=
  let arguments : Except TensorData.AccessError _ := do
    return (← lhs.data.asF32, ← rhs.data.asF32, ← out.data.asF32)
  match arguments with
  | .ok (lhs, rhs, out) => (Kernel.gemm plan lhs rhs out).map .f32
  | .error error => .refuse (.ofAccess error) out.data

def execute (impl : GemmImplementation) (inputs outputs : List TensorView) :
    Except Fault Unit × List TensorData :=
  let old := outputs.map TensorView.data
  match impl.plan, inputs, outputs with
  | none, _, _ =>
    (.error (.refused (.execution "faer matmul executed before finalize")), old)
  | some (plan, _), [lhs, rhs], [out] =>
    let outcome := runPlan plan lhs rhs out
    (outcome.ended, [outcome.out])
  | _, _, _ =>
    (.error (.refused (.execution "faer matmul expects two inputs and one output")), old)

/-- The written form: the plan and the extents. -/
def serialize (impl : GemmImplementation) : Except BackendError Bytes :=
  match impl.plan with
  | some plan => .ok (encode plan)
  | none => .error (.payload "instance is not finalized")

/-- Takes over a written form of the same product. -/
def deserialize (impl : GemmImplementation) (payload : Bytes) :
    Except BackendError FinalizedForm × GemmImplementation :=
  match (decode payload : Except Wire.Error (GemmPlan × ConcreteShapes)) with
  | .error error => (.error (.ofWire error), impl)
  | .ok (plan, shapes) =>
    if some plan.spec ≠ impl.spec then
      let needed := Text.option (impl.spec.map MatMulSpec.text)
      (.error (.payload s!"payload holds {plan.spec.text}, node needs {needed}"), impl)
    else (.ok (form plan shapes), { impl with plan := some (plan, shapes) })

instance : Implementation GemmImplementation Unit where
  name _ := kernelName
  backend _ := .vendorLibrary
  supports := supports
  finalize impl shapes op env :=
    let (result, impl) := impl.finalize shapes op
    (result, impl, env)
  execute impl inputs outputs env :=
    let (result, outputs) := impl.execute inputs outputs
    (result, outputs, env)
  serialize := serialize
  deserialize impl payload env :=
    let (result, impl) := impl.deserialize payload
    (result, impl, env)

def descriptor : Descriptor GemmImplementation :=
  { name := kernelName
    op := .matMul
    backend := .vendorLibrary
    priority := 20
    supported := [(.f32, .rowMajor)]
    instantiate := ofNode }

end GemmImplementation

end TensorEngine
