import TensorEngine.Kernel
import TensorEngine.Registry

/-!
# Reference implementations

One sequential implementation per operation kind, for every element type that the operation has a
meaning on.
-/

namespace TensorEngine

open Wire

/-- What a reference implementation runs; parameters that are data are left out. -/
inductive RefKernel where
  | parameter
  | constant
  | binary (op : BinaryOp)
  | unary (op : UnaryOp)
  | matMul (spec : MatMulSpec)
  | reduce (spec : ReduceSpec)
  | reshape
  | reorder
deriving DecidableEq, Repr, Inhabited

namespace RefKernel

def ofOp : OpSpec → RefKernel
  | .parameter => .parameter
  | .constant _ => .constant
  | .binary op => .binary op
  | .unary op => .unary op
  | .matMul spec => .matMul spec
  | .reduce spec => .reduce spec
  | .reshape _ => .reshape
  | .reorder _ => .reorder

def kind : RefKernel → OperationKind
  | .parameter => .parameter
  | .constant => .constant
  | .binary _ => .elementwiseBinary
  | .unary _ => .elementwiseUnary
  | .matMul _ => .matMul
  | .reduce _ => .reduce
  | .reshape => .reshape
  | .reorder => .reorder

/-- Whether the kernel has a meaning on a type of elements. -/
def accepts : RefKernel → DType → Bool
  | .unary .exp, dtype | .unary .tanh, dtype => dtype.isFloat
  | .unary .neg, dtype | .unary .abs, dtype | .matMul _, dtype => dtype ≠ .u8
  | _, _ => true

def text : RefKernel → String
  | .parameter => "Parameter"
  | .constant => "Constant"
  | .binary op => Text.applied "Binary" [op.name]
  | .unary op => Text.applied "Unary" [op.name]
  | .matMul spec => Text.applied "MatMul" [spec.text]
  | .reduce spec => Text.applied "Reduce" [spec.text]
  | .reshape => "Reshape"
  | .reorder => "Reorder"

instance : Encode RefKernel where
  encode
    | .parameter => encodeTag 0
    | .constant => encodeTag 1
    | .binary op => encodeTag 2 ++ encode op
    | .unary op => encodeTag 3 ++ encode op
    | .matMul spec => encodeTag 4 ++ encode spec
    | .reduce spec => encodeTag 5 ++ encode spec
    | .reshape => encodeTag 6
    | .reorder => encodeTag 7

instance : Decode RefKernel where
  read := do
    match ← readTag with
    | 0 => return .parameter
    | 1 => return .constant
    | 2 => return .binary (← Decode.read)
    | 3 => return .unary (← Decode.read)
    | 4 => return .matMul (← Decode.read)
    | 5 => return .reduce (← Decode.read)
    | 6 => return .reshape
    | 7 => return .reorder
    | tag => throw (.unknownVariant tag 8)

end RefKernel

structure ReferenceImplementation where
  kernel : RefKernel
  /-- The extents, once it is finalized. -/
  shapes : Option ConcreteShapes := none
deriving DecidableEq, Repr, Inhabited

namespace ReferenceImplementation

def nameOf (kind : OperationKind) : String := "ref." ++ kind.label

def ofNode (node : Node) : ReferenceImplementation := { kernel := .ofOp node.op }

def name (impl : ReferenceImplementation) : String := nameOf impl.kernel.kind

/-- Whether all layouts have an element type that the kernel accepts. -/
def supports (impl : ReferenceImplementation) (inputs outputs : List Layout) : Bool :=
  (inputs ++ outputs).all fun layout ↦ impl.kernel.accepts layout.dtype

def form (impl : ReferenceImplementation) (shapes : ConcreteShapes) : FinalizedForm :=
  .ofParams impl.name shapes (encode impl.kernel)

/-- Checks that the declared extents of the result are the derived ones. -/
def checkShapes (shapes : ConcreteShapes) (op : OpSpec) : Except BackendError Unit := do
  let expected ← (op.outputDims shapes.inputs).mapError fun error ↦
    .unimplemented "finalize" error.message
  if shapes.outputs ≠ [expected] then
    throw (.execution
      s!"declared outputs {shapesText shapes.outputs} disagree with inferred {dimsText expected}")

/-- The form for some extents of an operation, when the implementation can run it. -/
def formFor (impl : ReferenceImplementation) (shapes : ConcreteShapes) (op : OpSpec) :
    Except BackendError FinalizedForm := do
  if RefKernel.ofOp op ≠ impl.kernel then
    throw (.unimplemented "finalize"
      s!"{impl.kernel.text} instance cannot run {op.kind.name}")
  if impl.kernel ≠ .parameter then checkShapes shapes op
  return impl.form shapes

def finalize (impl : ReferenceImplementation) (shapes : ConcreteShapes) (op : OpSpec) :
    Except BackendError FinalizedForm × ReferenceImplementation :=
  match impl.formFor shapes op with
  | .ok form => (.ok form, { impl with shapes := some shapes })
  | .error error => (.error error, impl)

/-- Runs the kernel on its operands and its single result. -/
def run (kernel : RefKernel) (inputs : List TensorView) (out : TensorView) :
    Kernel.Outcome TensorData :=
  match kernel, inputs with
  | .binary op, [lhs, rhs] => Kernel.elementwiseBinary op lhs rhs out
  | .unary op, [input] => Kernel.elementwiseUnary op input out
  | .matMul spec, [lhs, rhs] => Kernel.matMul spec lhs rhs out
  | .reduce spec, [input] => Kernel.reduce spec.kind input out
  | .reorder, [input] => Kernel.copy input out
  | .parameter, [] | .constant, [] | .reshape, [_] => ⟨.ok (), out.data⟩
  | kernel, inputs =>
    .refuse (.execution s!"{kernel.text} got {inputs.length} inputs") out.data

def execute (impl : ReferenceImplementation) (inputs outputs : List TensorView) :
    Except Fault Unit × List TensorData :=
  let old := outputs.map TensorView.data
  if impl.shapes.isNone then
    (.error (.refused (.execution s!"{impl.name} executed before finalize")), old)
  else
    match outputs with
    | [out] =>
      let outcome := run impl.kernel inputs out
      (outcome.ended, [outcome.out])
    | _ => (.error (.refused (.execution "expected exactly one output")), old)

/-- The written form: the kernel and the extents. -/
def serialize (impl : ReferenceImplementation) : Except BackendError Bytes :=
  match impl.shapes with
  | some shapes => .ok (encode (impl.kernel, shapes))
  | none => .error (.payload "instance is not finalized")

/-- Takes over a written form of the same kernel. -/
def deserialize (impl : ReferenceImplementation) (payload : Bytes) :
    Except BackendError FinalizedForm × ReferenceImplementation :=
  match (decode payload : Except Wire.Error (RefKernel × ConcreteShapes)) with
  | .error error => (.error (.ofWire error), impl)
  | .ok (kernel, shapes) =>
    if kernel ≠ impl.kernel then
      (.error (.payload s!"payload holds {kernel.text}, node needs {impl.kernel.text}"), impl)
    else (.ok (impl.form shapes), { impl with shapes := some shapes })

instance : Implementation ReferenceImplementation Unit where
  name := name
  backend _ := .reference
  supports := supports
  finalize impl shapes op env :=
    let (result, impl) := impl.finalize shapes op
    (result, impl, env)
  execute impl inputs outputs env :=
    let (result, outputs) := impl.execute inputs outputs
    (result, outputs, env)
  serialize := serialize
  deserialize impl payload env :=
    let (result, impl) := impl.deserialize payload
    (result, impl, env)

/-- The formats that the sequential loops take; others are reached by a conversion. -/
def formats : List Format := [.rowMajor, .nhwc, .any]

def descriptor (kind : OperationKind) : Descriptor ReferenceImplementation :=
  { name := nameOf kind
    op := kind
    backend := .reference
    supported := Descriptor.pairings DType.all formats
    instantiate := ofNode }

def descriptors : List (Descriptor ReferenceImplementation) := OperationKind.all.map descriptor

end ReferenceImplementation

end TensorEngine
