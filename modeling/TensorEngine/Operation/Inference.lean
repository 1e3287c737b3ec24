import TensorEngine.Operation

/-!
# Output shapes

Two views of the same rules.  `OpSpec.outputLayout` derives the declared layout of a result from
the declared layouts of the operands, whose extents may be open; `OpSpec.outputDims` derives the
extents of a result from the extents of one invocation.
-/

namespace TensorEngine

/-- Why an operation has no output. -/
inductive InferenceError where
  | arity (op : OpSpec) (actual : Nat)
  | undeclaredParameter
  | unboundParameter
  | operandTypes (lhs rhs : Layout)
  | operandRanks (lhs rhs : Layout)
  | extentsDiffer (left right : Extent)
  | extentOutside (extent min max : Extent)
  | rangesDisjoint (left right : Dim)
  | needsFloat (op : UnaryOp) (dtype : DType)
  | undefinedUnsigned (op : UnaryOp)
  | matMulBytes
  | matMulRanks (lhs rhs : Layout)
  | contraction (cause : InferenceError)
  | noAxis
  | reshapeOverflow
  | severalInferred
  | cannotInfer (total explicit : Nat)
  | reshapeCount (total explicit : Nat)
  | formatOpen
  | operandExtents (lhs rhs : Dims)
  | matMulExtents (lhs rhs : Dims)
  | contractionExtents (left right : Extent)
  | inputOverflow (dims : Dims)
  | reshapeExtents (total : Nat) (dims : Dims)
deriving DecidableEq, Repr

def InferenceError.message : InferenceError → String
  | .arity op actual => s!"{op.kind.label} takes {op.arity} inputs, got {actual}"
  | .undeclaredParameter => "parameters declare their own layout"
  | .unboundParameter => "parameter extents come from bindings"
  | .operandTypes lhs rhs => s!"operand dtypes differ: {lhs.text} vs {rhs.text}"
  | .operandRanks lhs rhs => s!"operand ranks differ: {lhs.text} vs {rhs.text}"
  | .extentsDiffer left right => s!"extents {left} and {right} differ"
  | .extentOutside extent min max => s!"extent {extent} is outside {(Dim.range min max).text}"
  | .rangesDisjoint left right => s!"ranges {left.text} and {right.text} do not overlap"
  | .needsFloat op dtype => s!"{op.name} needs a floating-point operand, got {dtype.name}"
  | .undefinedUnsigned op => s!"{op.name} is undefined for unsigned operands"
  | .matMulBytes => "matmul does not accept u8 operands"
  | .matMulRanks lhs rhs => s!"matmul expects rank-2 operands, got {lhs.text} and {rhs.text}"
  | .contraction cause => s!"contraction extents: {cause.message}"
  | .noAxis => "reduce needs at least one axis"
  | .reshapeOverflow => "reshape extents overflow"
  | .severalInferred => "reshape may infer at most one extent"
  | .cannotInfer total explicit => s!"cannot infer extent: {total} elements over {explicit}"
  | .reshapeCount total explicit => s!"cannot reshape {total} elements into {explicit}"
  | .formatOpen => "reorder needs a concrete target format"
  | .operandExtents lhs rhs => s!"operand extents differ: {dimsText lhs} vs {dimsText rhs}"
  | .matMulExtents lhs rhs =>
    s!"matmul expects rank-2 operands, got {dimsText lhs} and {dimsText rhs}"
  | .contractionExtents left right => s!"contraction extents differ: {left} vs {right}"
  | .inputOverflow dims => s!"extents {dimsText dims} overflow"
  | .reshapeExtents total dims => s!"cannot reshape {total} elements into {dimsText dims}"

/-- The tightest axis that both axes admit. -/
def Dim.merge : Dim → Dim → Except InferenceError Dim
  | .unbounded, other => .ok other
  | other, .unbounded => .ok other
  | .fixed x, .fixed y => if x = y then .ok (.fixed x) else .error (.extentsDiffer x y)
  | .fixed x, .range min max =>
    if (Dim.range min max).contains x then .ok (.fixed x) else .error (.extentOutside x min max)
  | .range min max, .fixed x =>
    if (Dim.range min max).contains x then .ok (.fixed x) else .error (.extentOutside x min max)
  | .range leftMin leftMax, .range rightMin rightMax =>
    let min := if leftMin < rightMin then rightMin else leftMin
    let max := if rightMax < leftMax then rightMax else leftMax
    if max < min then
      .error (.rangesDisjoint (.range leftMin leftMax) (.range rightMin rightMax))
    else .ok (.range min max)

namespace ReshapeDim

def explicit? : ReshapeDim → Option Extent
  | .explicit extent => some extent
  | .infer => none

/-- The product of the given extents; refused when it overflows or when more than one extent is
left to infer. -/
def explicitCount (target : List ReshapeDim) : Except InferenceError Nat :=
  match elementCount? (target.filterMap explicit?) with
  | none => .error .reshapeOverflow
  | some count =>
    if 1 < target.countP (· = .infer) then .error .severalInferred else .ok count

/-- The extent that makes `explicit` elements into `total`. -/
def inferExtent (total explicit : Nat) : Except InferenceError Extent :=
  if explicit = 0 ∨ total % explicit ≠ 0 then .error (.cannotInfer total explicit)
  else .ok (UInt64.ofNat (total / explicit))

end ReshapeDim

namespace MatMulSpec

/-- Rows and columns of an operand that may be stored transposed. -/
def oriented {α : Type} (transposed : Bool) (rows columns : α) : α × α :=
  if transposed then (columns, rows) else (rows, columns)

/-- The extents `(m, k, n)` of a product of an `m × k` and a `k × n` matrix. -/
def extents (spec : MatMulSpec) : Dims → Dims → Except InferenceError (Extent × Extent × Extent)
  | [lhsRows, lhsColumns], [rhsRows, rhsColumns] =>
    let (m, k) := oriented spec.transposeLhs lhsRows lhsColumns
    let (k', n) := oriented spec.transposeRhs rhsRows rhsColumns
    if k = k' then .ok (m, k, n) else .error (.contractionExtents k k')
  | lhs, rhs => .error (.matMulExtents lhs rhs)

end MatMulSpec

namespace ReduceSpec

/-- Drops the innermost axis, or replaces it by `unit`. -/
def reduceLast {α : Type} (spec : ReduceSpec) (unit : α) (dims : List α) : List α :=
  if spec.keepDims then dims.dropLast ++ [unit] else dims.dropLast

end ReduceSpec

namespace UnaryOp

/-- Exponential functions need floating-point numbers, and signs need signed numbers. -/
def checkType (op : UnaryOp) (dtype : DType) : Except InferenceError Unit :=
  match op with
  | .exp | .tanh => if dtype.isFloat then .ok () else .error (.needsFloat op dtype)
  | .neg | .abs => if dtype = .u8 then .error (.undefinedUnsigned op) else .ok ()
  | .relu => .ok ()

end UnaryOp

namespace OpSpec

def outputLayout (op : OpSpec) (inputs : List Layout) : Except InferenceError Layout :=
  match op, inputs with
  | .parameter, [] => .error .undeclaredParameter
  | .constant tensor, [] => .ok (.ofDims tensor.dtype tensor.dims)
  | .binary _, [lhs, rhs] => do
    if lhs.dtype ≠ rhs.dtype then throw (.operandTypes lhs rhs)
    if lhs.shape.rank ≠ rhs.shape.rank then throw (.operandRanks lhs rhs)
    let dims ← (lhs.shape.dims.zip rhs.shape.dims).mapM fun (left, right) ↦ left.merge right
    return ⟨⟨dims⟩, lhs.dtype, if lhs.format = .any then rhs.format else lhs.format⟩
  | .unary function, [input] => do
    function.checkType input.dtype
    return input
  | .matMul spec, [lhs, rhs] => do
    if lhs.dtype ≠ rhs.dtype then throw (.operandTypes lhs rhs)
    if lhs.dtype = .u8 then throw .matMulBytes
    match lhs.shape.dims, rhs.shape.dims with
    | [lhsRows, lhsColumns], [rhsRows, rhsColumns] =>
      let (m, k) := MatMulSpec.oriented spec.transposeLhs lhsRows lhsColumns
      let (k', n) := MatMulSpec.oriented spec.transposeRhs rhsRows rhsColumns
      let _ ← (k.merge k').mapError .contraction
      return ⟨⟨[m, n]⟩, lhs.dtype, lhs.format⟩
    | _, _ => throw (.matMulRanks lhs rhs)
  | .reduce spec, [input] =>
    if input.shape.rank = 0 then .error .noAxis
    else .ok { input with shape := ⟨spec.reduceLast (.fixed 1) input.shape.dims⟩ }
  | .reshape target, [input] => do
    let explicit ← ReshapeDim.explicitCount target
    let total := input.shape.staticDims?.bind elementCount?
    let dims ← target.mapM fun
      | .explicit extent => .ok (.fixed extent)
      | .infer =>
        match total with
        | some total => .fixed <$> ReshapeDim.inferExtent total explicit
        | none => .ok .unbounded
    match total with
    | some total =>
      if .infer ∉ target ∧ total ≠ explicit then throw (.reshapeCount total explicit)
    | none => pure ()
    return { input with shape := ⟨dims⟩ }
  | .reorder target, [input] =>
    if target = .any then .error .formatOpen else .ok (input.withFormat target)
  | op, inputs => .error (.arity op inputs.length)

/-- The extents of the result of one invocation. -/
def outputDims (op : OpSpec) (inputs : List Dims) : Except InferenceError Dims :=
  match op, inputs with
  | .parameter, [] => .error .unboundParameter
  | .constant tensor, [] => .ok tensor.dims
  | .binary _, [lhs, rhs] => if lhs = rhs then .ok lhs else .error (.operandExtents lhs rhs)
  | .unary _, [input] => .ok input
  | .matMul spec, [lhs, rhs] => do
    let (m, _, n) ← spec.extents lhs rhs
    return [m, n]
  | .reduce spec, [input] =>
    if input = [] then .error .noAxis else .ok (spec.reduceLast 1 input)
  | .reshape target, [input] => do
    let some total := elementCount? input | throw (.inputOverflow input)
    let explicit ← ReshapeDim.explicitCount target
    let dims ← target.mapM fun
      | .explicit extent => .ok extent
      | .infer => ReshapeDim.inferExtent total explicit
    if .infer ∉ target ∧ total ≠ explicit then throw (.reshapeExtents total dims)
    return dims
  | .reorder _, [input] => .ok input
  | op, inputs => .error (.arity op inputs.length)

end OpSpec

end TensorEngine
