import TensorEngine.Backend

/-!
# Sequential kernels

Plain loops over elements in logical row-major order.  A kernel checks the lengths of its
operands, then computes the elements of the result one after the other from the front; when one
of them fails, those before it are already in place.  A length that does not fit a word and an
index outside its operand break the kernel down.
-/

namespace TensorEngine

/-! ## Single elements -/

namespace BinaryOp

/-- The operation on floating-point numbers. -/
def applyF32 : BinaryOp → F32 → F32 → F32
  | .add, x, y => x + y
  | .sub, x, y => x - y
  | .mul, x, y => x * y
  | .div, x, y => x / y
  | .maximum, x, y => x.max y
  | .minimum, x, y => x.min y

/-- The operation on integers.  Division is refused by zero and where the quotient is no
integer of 32 bits. -/
def applyI32 : BinaryOp → Int32 → Int32 → Except BackendError Int32
  | .add, x, y => .ok (x + y)
  | .sub, x, y => .ok (x - y)
  | .mul, x, y => .ok (x * y)
  | .div, x, y =>
    if y = 0 ∨ x = Int32.minValue ∧ y = -1 then
      .error (.execution s!"integer division {x.toInt} / {y.toInt}")
    else .ok (x / y)
  | .maximum, x, y => .ok (if x < y then y else x)
  | .minimum, x, y => .ok (if y < x then y else x)

def applyU8 : BinaryOp → UInt8 → UInt8 → Except BackendError UInt8
  | .add, x, y => .ok (x + y)
  | .sub, x, y => .ok (x - y)
  | .mul, x, y => .ok (x * y)
  | .div, x, y =>
    if y = 0 then .error (.execution s!"integer division {x.toNat} / 0") else .ok (x / y)
  | .maximum, x, y => .ok (if x < y then y else x)
  | .minimum, x, y => .ok (if y < x then y else x)

end BinaryOp

namespace UnaryOp

/-- The operation on floating-point numbers. -/
def applyF32 : UnaryOp → F32 → F32
  | .neg, x => -x
  | .abs, x => x.abs
  | .relu, x => x.max 0
  | .exp, x => x.exp
  | .tanh, x => x.tanh

/-- The operation is not available on a type of elements. -/
def unavailable (op : UnaryOp) (dtype : DType) : BackendError :=
  .unimplemented "elementwise_unary" s!"{op.name} on {dtype.name}"

def applyI32 : UnaryOp → Int32 → Except BackendError Int32
  | .neg, x => .ok (-x)
  | .abs, x => .ok (if x < 0 then -x else x)
  | .relu, x => .ok (if x < 0 then 0 else x)
  | op@.exp, _ | op@.tanh, _ => .error (op.unavailable .i32)

def applyU8 : UnaryOp → UInt8 → Except BackendError UInt8
  | .relu, x => .ok x
  | op@.neg, _ | op@.abs, _ | op@.exp, _ | op@.tanh, _ => .error (op.unavailable .u8)

end UnaryOp

namespace ReduceKind

/-- Reduces a row of floating-point numbers. -/
def rowF32 : ReduceKind → Array F32 → F32
  | .sum, row => row.foldl (· + ·) 0
  | .max, row => row.foldl F32.max .negInfinity

def rowI32 : ReduceKind → Array Int32 → Int32
  | .sum, row => row.foldl (· + ·) 0
  | .max, row => row.foldl (fun x y ↦ if x < y then y else x) Int32.minValue

def rowU8 : ReduceKind → Array UInt8 → UInt8
  | .sum, row => row.foldl (· + ·) 0
  | .max, row => row.foldl (fun x y ↦ if x < y then y else x) 0

end ReduceKind

namespace Kernel

/-- What a kernel leaves behind. -/
structure Outcome (α : Type) where
  ended : Except Fault Unit
  out : α

def Outcome.map {α β : Type} (f : α → β) (outcome : Outcome α) : Outcome β :=
  ⟨outcome.ended, f outcome.out⟩

/-- The kernel did not start; the elements stay as they were. -/
def Outcome.refuse {α : Type} (error : BackendError) (out : α) : Outcome α :=
  ⟨.error (.refused error), out⟩

/-- The elements that a kernel answers at once; when it fails, they stay as they are. -/
def Outcome.ofResult {α : Type} (result : Except Fault α) (out : α) : Outcome α :=
  match result with
  | .ok computed => ⟨.ok (), computed⟩
  | .error fault => ⟨.error fault, out⟩

/-! ## Loops -/

/-- The element at an index; outside the operand the kernel breaks down. -/
def element {α : Type} (values : Array α) (index : Nat) : Except Fault α :=
  match values[index]? with
  | some value => .ok value
  | none =>
    .error (.panicked
      s!"index out of bounds: the len is {values.size} but the index is {index}")

/-- The elements from `start` up to `stop`; outside the operand the kernel breaks down. -/
def slice {α : Type} (values : Array α) (start stop : Nat) : Except Fault (Array α) :=
  if stop ≤ values.size then .ok (values.extract start stop)
  else
    .error (.panicked s!"range end index {stop} out of range for slice of length {values.size}")

/-- Computes the elements from `index` on, one after the other, up to the first failure. -/
def fillFrom {α : Type} (compute : Nat → Except Fault α) (index : Nat) (out : Array α) :
    Outcome (Array α) :=
  if h : index < out.size then
    match compute index with
    | .ok value => fillFrom compute (index + 1) (out.set index value h)
    | .error fault => ⟨.error fault, out⟩
  else ⟨.ok (), out⟩
termination_by out.size - index

/-- Computes all elements of a result from the front. -/
def fill {α : Type} (compute : Nat → Except Fault α) (out : Array α) : Outcome (Array α) :=
  fillFrom compute 0 out

/-- Computes all elements of a result after a check has succeeded. -/
def fillAfter {α : Type} (check : Except Fault Unit) (compute : Nat → Except Fault α)
    (out : Array α) : Outcome (Array α) :=
  match check with
  | .ok () => fill compute out
  | .error fault => ⟨.error fault, out⟩

/-- A failure of one element as a fault of the kernel. -/
def lift {α : Type} (result : Except BackendError α) : Except Fault α :=
  result.mapError .refused

/-- A kernel breaks down at a product of lengths that does not fit a word. -/
def overflow : Fault := .panicked Size.overflowMessage

/-- The product of two lengths. -/
def times (a b : Nat) : Except Fault Nat :=
  match Size.mul? a b with
  | some product => .ok product
  | none => .error overflow

theorem times_eq_ok_iff {a b p : Nat} : times a b = .ok p ↔ a * b = p ∧ p < Size.wordCount := by
  rw [times, ← Size.mul?_eq_some_iff]
  cases Size.mul? a b <;> simp

theorem times_of_lt {a b : Nat} (h : a * b < Size.wordCount) : times a b = .ok (a * b) :=
  times_eq_ok_iff.2 ⟨rfl, h⟩

theorem times_of_le {a b : Nat} (h : Size.wordCount ≤ a * b) : times a b = .error overflow := by
  rw [times, Size.mul?_of_le h]

def checkLength (what : String) (expected actual : Nat) : Except Fault Unit :=
  if expected = actual then .ok ()
  else .error (.refused (.execution s!"{what}: expected {expected} elements, got {actual}"))

/-- The operands have elements of different types, or of a type that the kernel does not take. -/
def mismatch (what : String) : BackendError :=
  .execution s!"{what}: operand dtypes disagree"

/-! ## Elementwise kernels -/

/-- Applies a function to pairs of elements. -/
def zipWith {α : Type} (apply : α → α → Except BackendError α) (lhs rhs out : Array α) :
    Outcome (Array α) :=
  fillAfter
    (do
      checkLength "elementwise_binary" out.size lhs.size
      checkLength "elementwise_binary" out.size rhs.size)
    (fun index ↦ do lift (apply (← element lhs index) (← element rhs index)))
    out

/-- Applies an operation to pairs of elements. -/
def elementwiseBinary (op : BinaryOp) (lhs rhs out : TensorView) : Outcome TensorData :=
  match lhs.data, rhs.data, out.data with
  | .f32 a, .f32 b, .f32 o => (zipWith (fun x y ↦ .ok (op.applyF32 x y)) a b o).map .f32
  | .i32 a, .i32 b, .i32 o => (zipWith op.applyI32 a b o).map .i32
  | .u8 a, .u8 b, .u8 o => (zipWith op.applyU8 a b o).map .u8
  | _, _, _ => .refuse (mismatch "elementwise_binary") out.data

def map {α : Type} (apply : α → Except BackendError α) (input out : Array α) :
    Outcome (Array α) :=
  fillAfter (checkLength "elementwise_unary" out.size input.size)
    (fun index ↦ do lift (apply (← element input index))) out

def elementwiseUnary (op : UnaryOp) (input out : TensorView) : Outcome TensorData :=
  match input.data, out.data with
  | .f32 x, .f32 o => (map (fun x ↦ .ok (op.applyF32 x)) x o).map .f32
  | .i32 x, .i32 o => (map op.applyI32 x o).map .i32
  | .u8 x, .u8 o => (map op.applyU8 x o).map .u8
  | _, _ => .refuse (mismatch "elementwise_unary") out.data

/-! ## Reductions -/

/-- Reduces rows of `inner` elements to one element each. -/
def reduceRows {α : Type} (row : Array α → α) (inner : Nat) (input out : Array α) :
    Outcome (Array α) :=
  fillAfter (do checkLength "reduce" (← times out.size inner) input.size)
    (fun index ↦ row <$> slice input (index * inner) ((index + 1) * inner)) out

/-- The innermost extent; a tensor without axes is one row of one element. -/
def innerExtent (dims : Dims) : Nat := (dims.getLast?.getD 1).toNat

def reduce (kind : ReduceKind) (input out : TensorView) : Outcome TensorData :=
  let inner := innerExtent input.dims
  match input.data, out.data with
  | .f32 x, .f32 o => (reduceRows kind.rowF32 inner x o).map .f32
  | .i32 x, .i32 o => (reduceRows kind.rowI32 inner x o).map .i32
  | .u8 x, .u8 o => (reduceRows kind.rowU8 inner x o).map .u8
  | _, _ => .refuse (mismatch "reduce") out.data

/-! ## Matrix products -/

/-- Where row `i`, column `p` of an `m × k` matrix is stored. -/
def lhsIndex (transposed : Bool) (m k i p : Nat) : Nat :=
  if transposed then p * m + i else i * k + p

/-- Where row `p`, column `j` of a `k × n` matrix is stored. -/
def rhsIndex (transposed : Bool) (k n p j : Nat) : Nat :=
  if transposed then j * k + p else p * n + j

/-- The sum of `count` products, added up in ascending order to zero. -/
def dot {α : Type} [Add α] [Mul α] [Zero α] (count : Nat) (lhs rhs : Nat → Except Fault α) :
    Except Fault α :=
  (List.range count).foldlM (fun sum p ↦ do return sum + (← lhs p) * (← rhs p)) 0

/-- The product of an `m × k` and a `k × n` matrix. -/
def product {α : Type} [Add α] [Mul α] [Zero α] (spec : MatMulSpec) (m k n : Nat)
    (lhs rhs out : Array α) : Outcome (Array α) :=
  fillAfter
    (do
      checkLength "matmul" (← times m k) lhs.size
      checkLength "matmul" (← times k n) rhs.size
      checkLength "matmul" (← times m n) out.size)
    (fun index ↦
      let i := index / n
      let j := index % n
      dot k (fun p ↦ element lhs (lhsIndex spec.transposeLhs m k i p))
        (fun p ↦ element rhs (rhsIndex spec.transposeRhs k n p j)))
    out

def matMul (spec : MatMulSpec) (lhs rhs out : TensorView) : Outcome TensorData :=
  match spec.extents lhs.dims rhs.dims with
  | .error error => .refuse (.execution error.message) out.data
  | .ok (m, k, n) =>
    match lhs.data, rhs.data, out.data with
    | .f32 a, .f32 b, .f32 o => (product spec m.toNat k.toNat n.toNat a b o).map .f32
    | .i32 a, .i32 b, .i32 o => (product spec m.toNat k.toNat n.toNat a b o).map .i32
    | _, _, _ => .refuse (mismatch "matmul") out.data

/-! ## Copies -/

def copyArray {α : Type} (input out : Array α) : Outcome (Array α) :=
  fillAfter (checkLength "reorder" out.size input.size) (element input) out

/-- Copies a tensor.  Kernels see all tensors in logical order, so a reorder only gives the same
elements another format tag. -/
def copy (input out : TensorView) : Outcome TensorData :=
  match input.data, out.data with
  | .f32 x, .f32 o => (copyArray x o).map .f32
  | .i32 x, .i32 o => (copyArray x o).map .i32
  | .u8 x, .u8 o => (copyArray x o).map .u8
  | _, _ => .refuse (mismatch "reorder") out.data

end Kernel

end TensorEngine
