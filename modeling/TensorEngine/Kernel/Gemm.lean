import TensorEngine.Kernel

/-!
# Matrix products through column-major storage

A row-major `m × n` buffer is the column-major storage of an `n × m` matrix.  So the product
`C = A · B` is written as `Cᵀ = Bᵀ · Aᵀ` into a column-major view of the buffer of `C`, and a
transposed operand is only looked at the other way round.  How two matrices are multiplied is left
to a linear algebra library.

The library that is used adds up every entry from zero, except the entries of a column times a row,
which are single products.  The two differ only where zero added to a zero loses its sign.
-/

namespace TensorEngine

/-- The extents of a product, fixed when it is finalized. -/
structure GemmPlan where
  spec : MatMulSpec
  m : Extent
  /-- The columns of the left and the rows of the right operand. -/
  k : Extent
  n : Extent
deriving DecidableEq, Repr, Inhabited

namespace GemmPlan

open Wire

instance : Encode GemmPlan where
  encode plan := encode plan.spec ++ encode plan.m ++ encode plan.k ++ encode plan.n

instance : Decode GemmPlan :=
  ⟨return ⟨← Decode.read, ← Decode.read, ← Decode.read, ← Decode.read⟩⟩

end GemmPlan

namespace Kernel

variable {α : Type}

/-- A matrix that is read element by element. -/
structure MatrixView (α : Type) where
  rows : Nat
  columns : Nat
  /-- The element in a row and a column. -/
  entry : Nat → Nat → α

namespace MatrixView

/-- The matrix whose rows stand one after the other. -/
def ofRowMajor [Zero α] (values : Array α) (rows columns : Nat) : MatrixView α :=
  ⟨rows, columns, fun i j ↦ values.getD (i * columns + j) 0⟩

/-- Rows and columns exchanged. -/
def transpose (matrix : MatrixView α) : MatrixView α :=
  ⟨matrix.columns, matrix.rows, fun i j ↦ matrix.entry j i⟩

/-- An operand of `rows × columns`, which may be stored the other way round. -/
def operand [Zero α] (values : Array α) (rows columns : Nat) (transposed : Bool) :
    MatrixView α :=
  if transposed then (ofRowMajor values columns rows).transpose
  else ofRowMajor values rows columns

/-- Whether a product is that of a column and a row, with several entries in both. -/
def isOuter (left right : MatrixView α) : Bool :=
  left.columns = 1 && 1 < left.rows && 1 < right.columns

/-- An entry of the product, added up in ascending order to zero. -/
def sumEntry [Add α] [Mul α] [Zero α] (left right : MatrixView α) (i j : Nat) : α :=
  (List.range left.columns).foldl (fun sum p ↦ sum + left.entry i p * right.entry p j) 0

/-- An entry of the product of a column and a row.  It is not added to zero, so a zero keeps the
sign of the multiplication. -/
def outerEntry [Mul α] (left right : MatrixView α) (i j : Nat) : α :=
  left.entry i 0 * right.entry 0 j

def productEntry [Add α] [Mul α] [Zero α] (left right : MatrixView α) (i j : Nat) : α :=
  if left.isOuter right then outerEntry left right i j else sumEntry left right i j

def productColumnMajor [Add α] [Mul α] [Zero α] (left right : MatrixView α) : Array α :=
  Array.ofFn fun index : Fin (left.rows * right.columns) ↦
    productEntry left right (index % left.rows) (index / left.rows)

end MatrixView

/-- The operands do not have the lengths that the extents ask for. -/
def gemmSizes (plan : GemmPlan) (lhs rhs out : Nat) : BackendError :=
  .execution (s!"gemm operand sizes {lhs}/{rhs}/{out} do not match "
    ++ s!"m={plan.m} k={plan.k} n={plan.n}")

/-- How a library multiplies two matrices into a buffer of given content: what the buffer holds
afterwards, column after column. -/
abbrev Multiply (α : Type) := Array α → MatrixView α → MatrixView α → Array α

/-- Whether operands and result have the lengths that the extents ask for.  The next length is
only multiplied up when the one before it is right. -/
def gemmFits (m k n lhs rhs out : Nat) : Except Fault Bool := do
  if lhs ≠ (← times m k) then return false
  else if rhs ≠ (← times k n) then return false
  else return out = (← times m n)

/-- The product of two matrices in row-major order, multiplied by a library. -/
def gemmWith [Zero α] (multiply : Multiply α) (plan : GemmPlan) (lhs rhs out : Array α) :
    Outcome (Array α) :=
  let m := plan.m.toNat
  let k := plan.k.toNat
  let n := plan.n.toNat
  .ofResult (do
    if !(← gemmFits m k n lhs.size rhs.size out.size) then
      throw (.refused (gemmSizes plan lhs.size rhs.size out.size))
    else if m = 0 ∨ n = 0 then return out
    else if k = 0 then return out.map fun _ ↦ 0
    else
      let a := MatrixView.operand lhs m k plan.spec.transposeLhs
      let b := MatrixView.operand rhs k n plan.spec.transposeRhs
      return multiply out b.transpose a.transpose) out

/-- The product of two matrices in row-major order. -/
def gemm [Add α] [Mul α] [Zero α] (plan : GemmPlan) (lhs rhs out : Array α) :
    Outcome (Array α) :=
  gemmWith (fun _ left right ↦ left.productColumnMajor right) plan lhs rhs out

end Kernel

end TensorEngine
