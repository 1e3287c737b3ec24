import Mathlib
import TensorEngine.Kernel.Gemm
import TensorEngine.Proofs.Kernel.Refusals
import TensorEngine.Proofs.Operation.Abstraction

/-!
# Matrix products

A product reads its operands through index arithmetic that depends on how they are stored.  Here the
operands are matrices: an index is the place of an entry, every entry of the result is the sum of
the products of a row and a column, and a matrix stored transposed is the same matrix.

Sums of integers wrap, which gives the exact sum modulo the number of words.
-/

namespace TensorEngine

namespace Kernel

variable {α : Type}

/-! ## Places of entries -/

/-- An index determines the row and the column. -/
theorem div_mod_of_lt {columns i j : Nat} (hj : j < columns) :
    (i * columns + j) / columns = i ∧ (i * columns + j) % columns = j := by
  have hpos : 0 < columns := Nat.zero_lt_of_lt hj
  rw [Nat.add_comm, Nat.add_mul_div_right _ _ hpos, Nat.div_eq_of_lt hj, Nat.zero_add,
    Nat.add_mul_mod_self_right, Nat.mod_eq_of_lt hj]
  exact ⟨rfl, rfl⟩

/-- An index of a matrix lies in a row and a column. -/
theorem div_mod_lt {rows columns index : Nat} (h : index < rows * columns) :
    index / columns < rows ∧ index % columns < columns :=
  ⟨Nat.div_lt_of_lt_mul (Nat.mul_comm rows columns ▸ h), Nat.mod_lt _ (Nat.pos_of_lt_mul_left h)⟩

namespace MatrixView

variable {a a' b b' : MatrixView α} {values : Array α} {rows columns i j : Nat}
  {transposed : Bool}

/-- Two matrices have the same extents and the same entries. -/
structure Agrees (a b : MatrixView α) : Prop where
  rows_eq : a.rows = b.rows
  columns_eq : a.columns = b.columns
  entry_eq : ∀ i < a.rows, ∀ j < a.columns, a.entry i j = b.entry i j

theorem Agrees.refl (a : MatrixView α) : a.Agrees a := ⟨rfl, rfl, fun _ _ _ _ ↦ rfl⟩

/-! ## Operands -/

@[simp] theorem rows_operand [Zero α] : (operand values rows columns transposed).rows = rows := by
  cases transposed <;> rfl

@[simp] theorem columns_operand [Zero α] :
    (operand values rows columns transposed).columns = columns := by
  cases transposed <;> rfl

/-- What a product reads is an entry of its operand. -/
theorem element_operand [Zero α] (hsize : rows * columns = values.size) (hi : i < rows)
    (hj : j < columns) : element values (lhsIndex transposed rows columns i j) =
      .ok ((operand values rows columns transposed).entry i j) := by
  have hlt : lhsIndex transposed rows columns i j < values.size := hsize ▸ lhsIndex_lt hi hj
  have hentry : (operand values rows columns transposed).entry i j =
      values.getD (lhsIndex transposed rows columns i j) 0 := by
    cases transposed <;> rfl
  rw [element_eq_ok hlt, hentry, Array.getElem_eq_getD 0]

/-! ## The product -/

def productRowMajor [Add α] [Mul α] [Zero α] (left right : MatrixView α) : Array α :=
  Array.ofFn fun index : Fin (left.rows * right.columns) ↦
    left.sumEntry right (index / right.columns) (index % right.columns)

section

variable [Add α] [Mul α] [Zero α]

theorem size_productRowMajor : (a.productRowMajor b).size = a.rows * b.columns := Array.size_ofFn

theorem getElem?_productRowMajor (hi : i < a.rows) (hj : j < b.columns) :
    (a.productRowMajor b)[i * b.columns + j]? = some (a.sumEntry b i j) := by
  have hlt : i * b.columns + j < a.rows * b.columns :=
    show lhsIndex false a.rows b.columns i j < _ from lhsIndex_lt hi hj
  obtain ⟨hrow, hcolumn⟩ := div_mod_of_lt (i := i) hj
  rw [productRowMajor, Array.getElem?_ofFn, dif_pos hlt, hrow, hcolumn]

theorem sumEntry_congr (ha : a.Agrees a') (hb : b.Agrees b') (hinner : a.columns = b.rows)
    (hi : i < a.rows) (hj : j < b.columns) : a.sumEntry b i j = a'.sumEntry b' i j := by
  unfold sumEntry
  rw [← ha.columns_eq]
  refine List.foldl_ext _ _ _ fun sum p hp ↦ ?_
  have hp : p < a.columns := List.mem_range.1 hp
  rw [ha.entry_eq i hi p hp, hb.entry_eq p (hinner ▸ hp) j hj]

theorem productRowMajor_congr (ha : a.Agrees a') (hb : b.Agrees b')
    (hinner : a.columns = b.rows) : a.productRowMajor b = a'.productRowMajor b' := by
  refine Array.ext ?_ fun index h h' ↦ ?_
  · rw [size_productRowMajor, size_productRowMajor, ha.rows_eq, hb.columns_eq]
  · simp only [productRowMajor, Array.getElem_ofFn]
    rw [size_productRowMajor] at h
    obtain ⟨hi, hj⟩ := div_mod_lt h
    rw [← hb.columns_eq]
    exact sumEntry_congr ha hb hinner hi hj

end

end MatrixView

/-! ## Sizes -/

/-- The buffers of a product have the lengths that its extents ask for, and a word counts them. -/
structure FitsProduct (m k n lhs rhs out : Nat) : Prop where
  lhs_eq : Size.mul? m k = some lhs
  rhs_eq : Size.mul? k n = some rhs
  out_eq : Size.mul? m n = some out

theorem FitsProduct.sizes {m k n lhs rhs out : Nat} (h : FitsProduct m k n lhs rhs out) :
    lhs = m * k ∧ rhs = k * n ∧ out = m * n :=
  ⟨(Size.mul?_eq_some_iff.1 h.lhs_eq).1.symm, (Size.mul?_eq_some_iff.1 h.rhs_eq).1.symm,
    (Size.mul?_eq_some_iff.1 h.out_eq).1.symm⟩

/-- Buffers that fit have the lengths that a product multiplies up. -/
theorem FitsProduct.times {m k n lhs rhs out : Nat} (h : FitsProduct m k n lhs rhs out) :
    times m k = .ok lhs ∧ times k n = .ok rhs ∧ times m n = .ok out :=
  ⟨times_eq_ok_iff.2 (Size.mul?_eq_some_iff.1 h.lhs_eq),
    times_eq_ok_iff.2 (Size.mul?_eq_some_iff.1 h.rhs_eq),
    times_eq_ok_iff.2 (Size.mul?_eq_some_iff.1 h.out_eq)⟩

/-! ## Sums -/

/-- A sum of products that can all be read. -/
theorem dot_eq_ok [Add α] [Mul α] [Zero α] {count : Nat} {left right : Nat → Except Fault α}
    {f g : Nat → α} (hleft : ∀ p < count, left p = .ok (f p))
    (hright : ∀ p < count, right p = .ok (g p)) :
    dot count left right = .ok ((List.range count).foldl (fun sum p ↦ sum + f p * g p) 0) := by
  have hfold : ∀ (indices : List Nat) (sum : α), (∀ p ∈ indices, p < count) →
      indices.foldlM (fun sum p ↦ do return sum + (← left p) * (← right p)) sum =
        (.ok (indices.foldl (fun sum p ↦ sum + f p * g p) sum) : Except Fault α) := by
    intro indices
    induction indices with
    | nil => exact fun sum _ ↦ rfl
    | cons p rest ih =>
      intro sum hlt
      rw [List.forall_mem_cons] at hlt
      rw [List.foldlM_cons, hleft p hlt.1, hright p hlt.1]
      exact ih _ hlt.2
  exact hfold (List.range count) 0 fun p ↦ List.mem_range.1

/-- On buffers that fit, a product is that of its operands, whatever the result held. -/
theorem product_eq [Add α] [Mul α] [Zero α] {spec : MatMulSpec} {m k n : Nat}
    {lhs rhs out : Array α} (h : FitsProduct m k n lhs.size rhs.size out.size) :
    product spec m k n lhs rhs out = ⟨.ok (),
      (MatrixView.operand lhs m k spec.transposeLhs).productRowMajor
        (MatrixView.operand rhs k n spec.transposeRhs)⟩ := by
  obtain ⟨hlhs, hrhs, hout⟩ := h.sizes
  obtain ⟨hmk, hkn, hmn⟩ := h.times
  have hcheck : (do
      checkLength "matmul" (← Kernel.times m k) lhs.size
      checkLength "matmul" (← Kernel.times k n) rhs.size
      checkLength "matmul" (← Kernel.times m n) out.size) = .ok () := by
    simp only [hmk, hkn, hmn, ok_bind, checkLength_eq_ok rfl]
  have hsize : ((MatrixView.operand lhs m k spec.transposeLhs).productRowMajor
      (MatrixView.operand rhs k n spec.transposeRhs)).size = m * n := by
    rw [MatrixView.size_productRowMajor, MatrixView.rows_operand, MatrixView.columns_operand]
  refine fillAfter_eq_ok hcheck (hsize.trans hout.symm) fun index hindex ↦ ?_
  have hlt : index < m * n := hsize ▸ hindex
  obtain ⟨hi, hj⟩ := div_mod_lt hlt
  have hleft : ∀ p < k, element lhs (lhsIndex spec.transposeLhs m k (index / n) p) =
      .ok ((MatrixView.operand lhs m k spec.transposeLhs).entry (index / n) p) :=
    fun p hp ↦ MatrixView.element_operand hlhs.symm hi hp
  have hright : ∀ p < k, element rhs (rhsIndex spec.transposeRhs k n p (index % n)) =
      .ok ((MatrixView.operand rhs k n spec.transposeRhs).entry p (index % n)) :=
    fun p hp ↦ MatrixView.element_operand hrhs.symm hp hj
  rw [dot_eq_ok hleft hright]
  simp only [MatrixView.productRowMajor, Array.getElem_ofFn, MatrixView.columns_operand,
    MatrixView.sumEntry]

/-- On buffers that fit, every entry of a product is the sum of a row times a column. -/
theorem product_entries [Add α] [Mul α] [Zero α] (spec : MatMulSpec) {m k n : Nat}
    {lhs rhs out : Array α} (h : FitsProduct m k n lhs.size rhs.size out.size) :
    ∃ filled, product spec m k n lhs rhs out = ⟨.ok (), filled⟩ ∧ filled.size = m * n ∧
      ∀ i < m, ∀ j < n, filled[i * n + j]? = some ((List.range k).foldl (fun sum p ↦ sum +
        (MatrixView.operand lhs m k spec.transposeLhs).entry i p *
          (MatrixView.operand rhs k n spec.transposeRhs).entry p j) 0) := by
  refine ⟨_, product_eq h, ?_, fun i hi j hj ↦ ?_⟩
  · rw [MatrixView.size_productRowMajor, MatrixView.rows_operand, MatrixView.columns_operand]
  · have hentry := MatrixView.getElem?_productRowMajor
      (a := MatrixView.operand lhs m k spec.transposeLhs)
      (b := MatrixView.operand rhs k n spec.transposeRhs)
      (by rwa [MatrixView.rows_operand]) (by rwa [MatrixView.columns_operand])
    rwa [MatrixView.sumEntry, MatrixView.columns_operand, MatrixView.columns_operand] at hentry

/-! ## Integers -/

/-- A wrapping sum of products is the exact one modulo the number of words. -/
theorem toInt_sum (f g : Nat → Int32) (count : Nat) :
    ((List.range count).foldl (fun sum p ↦ sum + f p * g p) 0).toInt =
      (∑ p ∈ Finset.range count, (f p).toInt * (g p).toInt).bmod (2 ^ 32) := by
  induction count with
  | zero => rfl
  | succ count ih =>
    rw [List.range_succ, List.foldl_append, List.foldl_cons, List.foldl_nil, Int32.toInt_add, ih,
      Int32.toInt_mul, Finset.sum_range_succ, Int.bmod_add_bmod, Int.add_bmod_bmod]

/-! ## Transposed storage -/

/-- The elements of a `rows × columns` matrix, column after column. -/
def columnwise (rows columns : Nat) (values : Array α) : Array α :=
  Array.ofFn fun index : Fin values.size ↦
    values[index % rows * columns + index / rows]?.getD values[index]

theorem size_columnwise {rows columns : Nat} {values : Array α} :
    (columnwise rows columns values).size = values.size := Array.size_ofFn

theorem getElem?_columnwise {rows columns i j : Nat} {values : Array α}
    (hsize : rows * columns = values.size) (hi : i < rows) (hj : j < columns) :
    (columnwise rows columns values)[j * rows + i]? = values[i * columns + j]? := by
  have hlt : j * rows + i < values.size :=
    hsize ▸ (show lhsIndex true rows columns i j < _ from lhsIndex_lt hi hj)
  have hlt' : i * columns + j < values.size :=
    hsize ▸ (show lhsIndex false rows columns i j < _ from lhsIndex_lt hi hj)
  obtain ⟨hcolumn, hrow⟩ := div_mod_of_lt (i := j) hi
  rw [columnwise, Array.getElem?_ofFn, dif_pos hlt]
  simp only [hcolumn, hrow, Array.getElem?_eq_getElem hlt', Option.getD_some]

/-- Two buffers hold the same matrix, each in its own arrangement. -/
structure SameMatrix [Zero α] (rows columns : Nat) (transposed transposed' : Bool)
    (values values' : Array α) : Prop where
  size_eq : values'.size = values.size
  agrees : (MatrixView.operand values' rows columns transposed').Agrees
    (MatrixView.operand values rows columns transposed)

section

variable {rows columns r c : Nat} {transposed : Bool}

theorem SameMatrix.refl [Zero α] (values : Array α) :
    SameMatrix r c transposed transposed values values := ⟨rfl, .refl _⟩

/-- The elements stored the other way round are the same matrix. -/
theorem sameMatrix_columnwise [Zero α] {values : Array α}
    (horiented : MatMulSpec.oriented transposed rows columns = (r, c))
    (hsize : r * c = values.size) :
    SameMatrix r c transposed (!transposed) values (columnwise rows columns values) := by
  refine ⟨size_columnwise, by simp, by simp, fun i hi j hj ↦ ?_⟩
  rw [MatrixView.rows_operand] at hi
  rw [MatrixView.columns_operand] at hj
  cases transposed with
  | false =>
    obtain ⟨rfl, rfl⟩ := Prod.mk.inj horiented
    show (columnwise rows columns values).getD (j * rows + i) 0 = values.getD (i * columns + j) 0
    rw [Array.getD_eq_getD_getElem?, Array.getD_eq_getD_getElem?, getElem?_columnwise hsize hi hj]
  | true =>
    obtain ⟨rfl, rfl⟩ := Prod.mk.inj horiented
    rw [Nat.mul_comm] at hsize
    show (columnwise rows columns values).getD (i * rows + j) 0 = values.getD (j * columns + i) 0
    rw [Array.getD_eq_getD_getElem?, Array.getD_eq_getD_getElem?, getElem?_columnwise hsize hj hi]

end

/-- Products of the same matrices are the same, however these are stored. -/
theorem product_congr [Add α] [Mul α] [Zero α] {spec spec' : MatMulSpec} {m k n : Nat}
    {lhs lhs' rhs rhs' out : Array α} (h : FitsProduct m k n lhs.size rhs.size out.size)
    (hlhs : SameMatrix m k spec.transposeLhs spec'.transposeLhs lhs lhs')
    (hrhs : SameMatrix k n spec.transposeRhs spec'.transposeRhs rhs rhs') :
    product spec' m k n lhs' rhs' out = product spec m k n lhs rhs out := by
  have h' : FitsProduct m k n lhs'.size rhs'.size out.size := by
    rwa [hlhs.size_eq, hrhs.size_eq]
  have hinner : (MatrixView.operand lhs' m k spec'.transposeLhs).columns =
      (MatrixView.operand rhs' k n spec'.transposeRhs).rows := by
    rw [MatrixView.columns_operand, MatrixView.rows_operand]
  rw [product_eq h', product_eq h, MatrixView.productRowMajor_congr hlhs.agrees hrhs.agrees hinner]

end Kernel

namespace TensorData

/-- The elements of a `rows × columns` matrix, column after column. -/
def columnwise (rows columns : Nat) : TensorData → TensorData
  | .f32 values => .f32 (Kernel.columnwise rows columns values)
  | .i32 values => .i32 (Kernel.columnwise rows columns values)
  | .u8 values => .u8 (Kernel.columnwise rows columns values)

/-- Elements of one type that make the same matrix, each in its own arrangement. -/
inductive SameMatrix (rows columns : Nat) (transposed transposed' : Bool) :
    TensorData → TensorData → Prop
  | f32 {values values' : Array F32}
      (h : Kernel.SameMatrix rows columns transposed transposed' values values') :
      SameMatrix rows columns transposed transposed' (.f32 values) (.f32 values')
  | i32 {values values' : Array Int32}
      (h : Kernel.SameMatrix rows columns transposed transposed' values values') :
      SameMatrix rows columns transposed transposed' (.i32 values) (.i32 values')
  | u8 {values values' : Array UInt8}
      (h : Kernel.SameMatrix rows columns transposed transposed' values values') :
      SameMatrix rows columns transposed transposed' (.u8 values) (.u8 values')

theorem SameMatrix.refl {rows columns : Nat} {transposed : Bool} :
    ∀ data, SameMatrix rows columns transposed transposed data data
  | .f32 values => .f32 (.refl values)
  | .i32 values => .i32 (.refl values)
  | .u8 values => .u8 (.refl values)

theorem sameMatrix_columnwise {rows columns r c : Nat} {transposed : Bool} {data : TensorData}
    (horiented : MatMulSpec.oriented transposed rows columns = (r, c))
    (hsize : r * c = data.size) :
    SameMatrix r c transposed (!transposed) data (data.columnwise rows columns) := by
  cases data with
  | f32 => exact .f32 (Kernel.sameMatrix_columnwise horiented hsize)
  | i32 => exact .i32 (Kernel.sameMatrix_columnwise horiented hsize)
  | u8 => exact .u8 (Kernel.sameMatrix_columnwise horiented hsize)

end TensorData

/-- A matrix, stored the other way round. -/
def TensorView.transposed (view : TensorView) : TensorView :=
  match view.dims with
  | [rows, columns] => ⟨[columns, rows], view.data.columnwise rows.toNat columns.toNat⟩
  | _ => view

namespace MatMulSpec

theorem oriented_not {β : Type} (transposed : Bool) (rows columns : β) :
    oriented (!transposed) columns rows = oriented transposed rows columns := by
  cases transposed <;> rfl

theorem oriented_toNat {transposed : Bool} {rows columns m k : Extent}
    (h : oriented transposed rows columns = (m, k)) :
    oriented transposed rows.toNat columns.toNat = (m.toNat, k.toNat) := by
  cases transposed <;> cases h <;> rfl

/-- The product of a left operand that is stored the other way round. -/
def flipLhs (spec : MatMulSpec) : MatMulSpec := { spec with transposeLhs := !spec.transposeLhs }

/-- The product of a right operand that is stored the other way round. -/
def flipRhs (spec : MatMulSpec) : MatMulSpec := { spec with transposeRhs := !spec.transposeRhs }

end MatMulSpec

namespace Kernel

variable {spec spec' : MatMulSpec} {lhs lhs' rhs rhs' out : TensorView} {m k n : Extent}

/-- The product depends on the matrices only, not on how they are stored. -/
theorem matMul_congr (hextents : spec.extents lhs.dims rhs.dims = .ok (m, k, n))
    (hextents' : spec'.extents lhs'.dims rhs'.dims = .ok (m, k, n))
    (hfits : FitsProduct m.toNat k.toNat n.toNat lhs.data.size rhs.data.size out.data.size)
    (hlhs : lhs.data.SameMatrix m.toNat k.toNat spec.transposeLhs spec'.transposeLhs lhs'.data)
    (hrhs : rhs.data.SameMatrix k.toNat n.toNat spec.transposeRhs spec'.transposeRhs rhs'.data) :
    matMul spec' lhs' rhs' out = matMul spec lhs rhs out := by
  obtain ⟨_, a⟩ := lhs
  obtain ⟨_, a'⟩ := lhs'
  obtain ⟨_, b⟩ := rhs
  obtain ⟨_, b'⟩ := rhs'
  obtain ⟨_, o⟩ := out
  unfold matMul
  rw [hextents, hextents']
  cases hlhs with
  | f32 ha =>
    cases hrhs with
    | f32 hb =>
      cases o with
      | f32 o => exact congrArg (Outcome.map _) (product_congr hfits ha hb)
      | i32 | u8 => rfl
    | i32 | u8 => rfl
  | i32 ha =>
    cases hrhs with
    | i32 hb =>
      cases o with
      | i32 o => exact congrArg (Outcome.map _) (product_congr hfits ha hb)
      | f32 | u8 => rfl
    | f32 | u8 => rfl
  | u8 => rfl

theorem matMul_flipLhs (hextents : spec.extents lhs.dims rhs.dims = .ok (m, k, n))
    (hfits : FitsProduct m.toNat k.toNat n.toNat lhs.data.size rhs.data.size out.data.size) :
    matMul spec.flipLhs lhs.transposed rhs out = matMul spec lhs rhs out := by
  obtain ⟨lhsDims, a⟩ := lhs
  obtain ⟨_, _, _, _, rfl, hrhs, hmk, hkn⟩ := OpSpec.extents_eq_ok_iff.1 hextents
  refine matMul_congr hextents (OpSpec.extents_eq_ok_iff.2 ⟨_, _, _, _, rfl, hrhs,
    (MatMulSpec.oriented_not ..).trans hmk, hkn⟩) hfits ?_ (.refl _)
  exact TensorData.sameMatrix_columnwise (MatMulSpec.oriented_toNat hmk) hfits.sizes.1.symm

theorem matMul_flipRhs (hextents : spec.extents lhs.dims rhs.dims = .ok (m, k, n))
    (hfits : FitsProduct m.toNat k.toNat n.toNat lhs.data.size rhs.data.size out.data.size) :
    matMul spec.flipRhs lhs rhs.transposed out = matMul spec lhs rhs out := by
  obtain ⟨rhsDims, b⟩ := rhs
  obtain ⟨_, _, _, _, hlhs, rfl, hmk, hkn⟩ := OpSpec.extents_eq_ok_iff.1 hextents
  refine matMul_congr hextents (OpSpec.extents_eq_ok_iff.2 ⟨_, _, _, _, hlhs, rfl, hmk,
    (MatMulSpec.oriented_not ..).trans hkn⟩) hfits (.refl _) ?_
  exact TensorData.sameMatrix_columnwise (MatMulSpec.oriented_toNat hkn) hfits.sizes.2.1.symm

/-- The matrix product.  On operands that fit the extents it succeeds, for integers with the exact
sums of products modulo the number of words, for floating-point numbers with the sums in ascending
order from zero; and an operand that is stored the other way round makes no difference. -/
theorem matMul_computes_product (hextents : spec.extents lhs.dims rhs.dims = .ok (m, k, n))
    (hfits : FitsProduct m.toNat k.toNat n.toNat lhs.data.size rhs.data.size out.data.size) :
    (∀ a b o, lhs.data = .i32 a → rhs.data = .i32 b → out.data = .i32 o →
      ∃ filled, matMul spec lhs rhs out = ⟨.ok (), .i32 filled⟩ ∧ filled.size = m.toNat * n.toNat ∧
        ∀ i < m.toNat, ∀ j < n.toNat,
          filled[i * n.toNat + j]?.map Int32.toInt = some (Int.bmod
            (∑ p ∈ Finset.range k.toNat,
              ((MatrixView.operand a m.toNat k.toNat spec.transposeLhs).entry i p).toInt *
                ((MatrixView.operand b k.toNat n.toNat spec.transposeRhs).entry p j).toInt)
            (2 ^ 32))) ∧
    (∀ a b o, lhs.data = .f32 a → rhs.data = .f32 b → out.data = .f32 o →
      ∃ filled, matMul spec lhs rhs out = ⟨.ok (), .f32 filled⟩ ∧ filled.size = m.toNat * n.toNat ∧
        ∀ i < m.toNat, ∀ j < n.toNat,
          filled[i * n.toNat + j]? = some ((List.range k.toNat).foldl (fun sum p ↦ sum +
            (MatrixView.operand a m.toNat k.toNat spec.transposeLhs).entry i p *
              (MatrixView.operand b k.toNat n.toNat spec.transposeRhs).entry p j) 0)) ∧
    matMul spec.flipLhs lhs.transposed rhs out = matMul spec lhs rhs out ∧
    matMul spec.flipRhs lhs rhs.transposed out = matMul spec lhs rhs out := by
  refine ⟨?_, ?_, matMul_flipLhs hextents hfits, matMul_flipRhs hextents hfits⟩
  · intro a b o ha hb ho
    rw [ha, hb, ho] at hfits
    obtain ⟨filled, hproduct, hsize, hentries⟩ := product_entries spec hfits
    refine ⟨filled, ?_, hsize, fun i hi j hj ↦ ?_⟩
    · unfold matMul
      rw [hextents, ha, hb, ho]
      exact congrArg (Outcome.map _) hproduct
    · rw [hentries i hi j hj, Option.map_some, toInt_sum]
  · intro a b o ha hb ho
    rw [ha, hb, ho] at hfits
    obtain ⟨filled, hproduct, hsize, hentries⟩ := product_entries spec hfits
    refine ⟨filled, ?_, hsize, hentries⟩
    unfold matMul
    rw [hextents, ha, hb, ho]
    exact congrArg (Outcome.map _) hproduct

/-- A row of integers, with the sum of its products beyond the largest one. -/
def integerRow : TensorView := ⟨[1, 2], .i32 #[2147483647, 3]⟩

/-- A square matrix of integers that is stored transposed. -/
def integerSquare : TensorView := ⟨[2, 2], .i32 #[2, 1, -1, 5]⟩

/-- Room for a row of integers. -/
def blankRow : TensorView := ⟨[1, 2], .i32 #[0, 0]⟩

theorem matMul_computes_product_integerRow :
    (⟨false, true⟩ : MatMulSpec).extents integerRow.dims integerSquare.dims = .ok (1, 2, 2) ∧
      FitsProduct 1 2 2 integerRow.data.size integerSquare.data.size blankRow.data.size ∧
      matMul ⟨true, true⟩ integerRow.transposed integerSquare blankRow =
        matMul ⟨false, true⟩ integerRow integerSquare blankRow ∧
      ∃ filled, matMul ⟨false, true⟩ integerRow integerSquare blankRow = ⟨.ok (), .i32 filled⟩ ∧
        filled[0]?.map Int32.toInt = some (Int.bmod (2147483647 * 2 + 3 * 1) (2 ^ 32)) := by
  have hextents : (⟨false, true⟩ : MatMulSpec).extents integerRow.dims integerSquare.dims =
      .ok (1, 2, 2) := rfl
  have hfits : FitsProduct 1 2 2 integerRow.data.size integerSquare.data.size
      blankRow.data.size := ⟨rfl, rfl, rfl⟩
  obtain ⟨hint, _, hlhs, _⟩ := matMul_computes_product hextents hfits
  obtain ⟨filled, hrun, _, hentries⟩ := hint _ _ _ rfl rfl rfl
  exact ⟨hextents, hfits, hlhs, filled, hrun, hentries 0 (by decide) 0 (by decide)⟩

end Kernel

end TensorEngine
