import TensorEngine.Tensor

/-!
# Operations

The closed catalogue of operations.  An `OpSpec` is an operation kind together with its
parameters; the kind alone decides how many operands it takes and which implementations can run
it.
-/

namespace TensorEngine

open Wire

/-- Families of operations; each has a reference implementation. -/
inductive OperationKind where
  | parameter
  | constant
  | elementwiseBinary
  | elementwiseUnary
  | matMul
  | reduce
  | reshape
  | reorder
deriving DecidableEq, Repr, Inhabited

namespace OperationKind

instance : Enumerated OperationKind :=
  ⟨[.parameter, .constant, .elementwiseBinary, .elementwiseUnary, .matMul, .reduce, .reshape,
    .reorder]⟩

def all : List OperationKind := Enumerated.values

/-- The name of a kind in keys and listings. -/
def label : OperationKind → String
  | .parameter => "parameter"
  | .constant => "constant"
  | .elementwiseBinary => "elementwise_binary"
  | .elementwiseUnary => "elementwise_unary"
  | .matMul => "matmul"
  | .reduce => "reduce"
  | .reshape => "reshape"
  | .reorder => "reorder"

def name : OperationKind → String
  | .parameter => "Parameter"
  | .constant => "Constant"
  | .elementwiseBinary => "ElementwiseBinary"
  | .elementwiseUnary => "ElementwiseUnary"
  | .matMul => "MatMul"
  | .reduce => "Reduce"
  | .reshape => "Reshape"
  | .reorder => "Reorder"

/-- Whether the kind is dispatched to an implementation.  Parameters and constants are filled in
from outside, and a reshape shares the elements of its operand. -/
def isExecutable : OperationKind → Bool
  | .parameter | .constant | .reshape => false
  | .elementwiseBinary | .elementwiseUnary | .matMul | .reduce | .reorder => true

theorem ne_parameter_of_isExecutable {kind : OperationKind} (h : kind.isExecutable = true) :
    kind ≠ .parameter := by
  rintro rfl
  cases h

end OperationKind

/-- Operations on two elements. -/
inductive BinaryOp where
  | add
  | sub
  | mul
  | div
  | maximum
  | minimum
deriving DecidableEq, Repr, Inhabited

namespace BinaryOp

instance : Enumerated BinaryOp := ⟨[.add, .sub, .mul, .div, .maximum, .minimum]⟩

def name : BinaryOp → String
  | .add => "Add"
  | .sub => "Sub"
  | .mul => "Mul"
  | .div => "Div"
  | .maximum => "Maximum"
  | .minimum => "Minimum"

end BinaryOp

/-- Operations on one element. -/
inductive UnaryOp where
  | neg
  | abs
  | relu
  | exp
  | tanh
deriving DecidableEq, Repr, Inhabited

namespace UnaryOp

instance : Enumerated UnaryOp := ⟨[.neg, .abs, .relu, .exp, .tanh]⟩

def name : UnaryOp → String
  | .neg => "Neg"
  | .abs => "Abs"
  | .relu => "Relu"
  | .exp => "Exp"
  | .tanh => "Tanh"

end UnaryOp

/-- Ways to reduce a row to one element. -/
inductive ReduceKind where
  | sum
  | max
deriving DecidableEq, Repr, Inhabited

namespace ReduceKind

instance : Enumerated ReduceKind := ⟨[.sum, .max]⟩

def name : ReduceKind → String
  | .sum => "Sum"
  | .max => "Max"

end ReduceKind

/-- A reduction over the innermost axis. -/
structure ReduceSpec where
  kind : ReduceKind
  /-- Whether the reduced axis stays with extent one. -/
  keepDims : Bool
deriving DecidableEq, Repr, Inhabited

namespace ReduceSpec

def text (spec : ReduceSpec) : String :=
  Text.record "ReduceSpec" [("kind", spec.kind.name), ("keep_dims", Text.bool spec.keepDims)]

instance : Encode ReduceSpec := ⟨fun spec ↦ encode spec.kind ++ encode spec.keepDims⟩

instance : Decode ReduceSpec := ⟨return ⟨← Decode.read, ← Decode.read⟩⟩

end ReduceSpec

/-- A matrix product whose operands may be stored transposed. -/
structure MatMulSpec where
  transposeLhs : Bool
  /-- Whether the right operand is stored transposed. -/
  transposeRhs : Bool
deriving DecidableEq, Repr, Inhabited

namespace MatMulSpec

def text (spec : MatMulSpec) : String :=
  Text.record "MatMulSpec"
    [("transpose_lhs", Text.bool spec.transposeLhs),
      ("transpose_rhs", Text.bool spec.transposeRhs)]

instance : Encode MatMulSpec :=
  ⟨fun spec ↦ encode spec.transposeLhs ++ encode spec.transposeRhs⟩

instance : Decode MatMulSpec := ⟨return ⟨← Decode.read, ← Decode.read⟩⟩

end MatMulSpec

/-- One axis of the target of a reshape. -/
inductive ReshapeDim where
  | explicit (extent : Extent)
  /-- Whatever extent keeps the number of elements. -/
  | infer
deriving DecidableEq, Repr, Inhabited

instance : Encode ReshapeDim where
  encode
    | .explicit extent => encodeTag 0 ++ encode extent
    | .infer => encodeTag 1

inductive OpSpec where
  | parameter
  | constant (tensor : HostTensor)
  | binary (op : BinaryOp)
  | unary (op : UnaryOp)
  | matMul (spec : MatMulSpec)
  | reduce (spec : ReduceSpec)
  | reshape (target : List ReshapeDim)
  | reorder (target : Format)
deriving DecidableEq, Repr, Inhabited

namespace OpSpec

def kind : OpSpec → OperationKind
  | .parameter => .parameter
  | .constant _ => .constant
  | .binary _ => .elementwiseBinary
  | .unary _ => .elementwiseUnary
  | .matMul _ => .matMul
  | .reduce _ => .reduce
  | .reshape _ => .reshape
  | .reorder _ => .reorder

def arity : OpSpec → Nat
  | .parameter | .constant _ => 0
  | .unary _ | .reduce _ | .reshape _ | .reorder _ => 1
  | .binary _ | .matMul _ => 2

instance : Encode OpSpec where
  encode
    | .parameter => encodeTag 0
    | .constant tensor => encodeTag 1 ++ encode tensor
    | .binary op => encodeTag 2 ++ encode op
    | .unary op => encodeTag 3 ++ encode op
    | .matMul spec => encodeTag 4 ++ encode spec
    | .reduce spec => encodeTag 5 ++ encode spec
    | .reshape target => encodeTag 6 ++ encode target
    | .reorder target => encodeTag 7 ++ encode target

end OpSpec

end TensorEngine
