import TensorEngine.Kernel
import TensorEngine.Registry

/-!
# A bounded implementation

Binary operations on floating-point numbers whose known extents stay within a bound.  It outranks
the other implementations, so a node whose extents outgrow the bound has to change over.
-/

namespace TensorEngine

open Wire

/-- A binary implementation for small extents. -/
structure LimitedImplementation where
  /-- What it runs; none for another operation. -/
  op : Option BinaryOp
deriving DecidableEq, Repr, Inhabited

namespace LimitedImplementation

def kernelName : String := "test.limited_binary"

/-- The largest extent that it takes. -/
def maxExtent : Extent := 4

def ofNode (node : Node) : LimitedImplementation :=
  { op := match node.op with
      | .binary op => some op
      | _ => none }

/-- Whether a layout holds floating-point numbers and all its known extents are small. -/
def withinBound (layout : Layout) : Bool :=
  layout.dtype = .f32 && layout.shape.dims.all fun dim ↦
    match dim.fixed? with
    | some extent => extent ≤ maxExtent
    | none => true

/-- Whether there is an operation and all layouts are within the bound. -/
def supports (impl : LimitedImplementation) (inputs outputs : List Layout) : Bool :=
  impl.op.isSome && (inputs ++ outputs).all withinBound

def form (impl : LimitedImplementation) (shapes : ConcreteShapes) : FinalizedForm :=
  .ofParams kernelName shapes (encode impl.op)

/-- Replaces the elements that have a partner in both operands. -/
def combine (apply : F32 → F32 → F32) (lhs rhs out : Array F32) : Array F32 :=
  TensorData.overwriteArray out (Array.zipWith apply lhs rhs)

/-- Runs an operation on operands and result. -/
def run (op : BinaryOp) (lhs rhs out : TensorView) : Kernel.Outcome TensorData :=
  let arguments : Except TensorData.AccessError _ := do
    return (← lhs.data.asF32, ← rhs.data.asF32, ← out.data.asF32)
  match arguments with
  | .ok (lhs, rhs, out) => ⟨.ok (), .f32 (combine op.applyF32 lhs rhs out)⟩
  | .error error => .refuse (.ofAccess error) out.data

def execute (impl : LimitedImplementation) (inputs outputs : List TensorView) :
    Except Fault Unit × List TensorData :=
  match impl.op, inputs, outputs with
  | some op, [lhs, rhs], [out] =>
    let outcome := run op lhs rhs out
    (outcome.ended, [outcome.out])
  | _, _, _ =>
    (.error (.refused (.execution "limited binary expects two inputs")),
      outputs.map TensorView.data)

/-- There is no written form. -/
def unwritable : BackendError := .payload "limited binary is not persistable"

instance : Implementation LimitedImplementation Unit where
  name _ := kernelName
  backend _ := .genericKernel
  supports := supports
  finalize impl shapes _ env := (.ok (impl.form shapes), impl, env)
  execute impl inputs outputs env :=
    let (result, outputs) := impl.execute inputs outputs
    (result, outputs, env)
  serialize _ := .error unwritable
  deserialize impl _ env := (.error unwritable, impl, env)

def descriptor : Descriptor LimitedImplementation :=
  { name := kernelName
    op := .elementwiseBinary
    backend := .genericKernel
    priority := 100
    supported := [(.f32, .rowMajor)]
    instantiate := ofNode }

end LimitedImplementation

end TensorEngine
