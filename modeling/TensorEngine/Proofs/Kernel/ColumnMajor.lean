import TensorEngine.Proofs.Kernel.Products

/-!
# Products through column-major storage

A library that writes the product of two matrices column after column is given the transposes of the
operands, in reverse order, and a view of the result.  What it leaves there is the product in
row-major order, so it is what the sequential kernel computes.

This asks of the scalars that multiplication is commutative, since the factors are exchanged, and
that addition is associative with zero, since the sums may be bracketed otherwise.  Nothing is asked
of the order of the terms: both sides add them up in ascending order.
-/

namespace TensorEngine

namespace Kernel

variable {α : Type} [AddMonoid α]

/-- What the library promises: where the inner extents agree and the buffer has room for the
product, every entry is replaced by the sum of the products of a row and a column. -/
structure Multiplies [Mul α] (multiply : Multiply α) : Prop where
  size_eq : ∀ (out : Array α) (left right : MatrixView α), left.columns = right.rows →
    out.size = left.rows * right.columns → (multiply out left right).size = out.size
  entry_eq : ∀ (out : Array α) (left right : MatrixView α), left.columns = right.rows →
    out.size = left.rows * right.columns → ∀ i < left.rows, ∀ j < right.columns,
      (multiply out left right)[j * left.rows + i]? =
        some ((List.range left.columns).map fun p ↦ left.entry i p * right.entry p j).sum

namespace MatrixView

/-- How a sum is bracketed makes no difference. -/
theorem sumEntry_eq_sum [Mul α] (left right : MatrixView α) (i j : Nat) : left.sumEntry right i j =
    ((List.range left.columns).map fun p ↦ left.entry i p * right.entry p j).sum := by
  rw [List.sum_eq_foldl, List.foldl_map, sumEntry]

/-- An entry of a product of transposes is that of the product. -/
theorem sumEntry_transpose [CommMagma α] {left right : MatrixView α}
    (h : left.columns = right.rows) (i j : Nat) :
    right.transpose.sumEntry left.transpose j i = left.sumEntry right i j := by
  unfold sumEntry transpose
  simp only [← h, mul_comm (right.entry _ _)]

end MatrixView

/-- The product that is computed column after column does what a library promises. -/
theorem multiplies_productColumnMajor [Mul α] :
    Multiplies fun (_ : Array α) left right ↦ left.productColumnMajor right := by
  refine ⟨fun out left right _ hsize ↦ Array.size_ofFn.trans hsize.symm,
    fun out left right _ _ i hi j hj ↦ ?_⟩
  have hlt : j * left.rows + i < left.rows * right.columns :=
    show lhsIndex true left.rows right.columns i j < _ from lhsIndex_lt hi hj
  obtain ⟨hcolumn, hrow⟩ := div_mod_of_lt (i := j) hi
  rw [MatrixView.productColumnMajor, Array.getElem?_ofFn, dif_pos hlt, hcolumn, hrow,
    MatrixView.productEntry]
  split
  · rename_i houter
    have hone : left.columns = 1 := by
      simp only [MatrixView.isOuter, Bool.and_eq_true, decide_eq_true_eq] at houter
      exact houter.1.1
    rw [hone, List.range_one, List.map_singleton, List.sum_singleton, MatrixView.outerEntry]
  · rw [MatrixView.sumEntry_eq_sum]

/-- The product of the transposes, column after column, is the product, row after row. -/
theorem Multiplies.transposes [CommMagma α] {multiply : Multiply α} (h : Multiplies multiply)
    {left right : MatrixView α} (hinner : left.columns = right.rows) {out : Array α}
    (hsize : out.size = left.rows * right.columns) :
    multiply out right.transpose left.transpose = left.productRowMajor right := by
  have hinner' : right.transpose.columns = left.transpose.rows := hinner.symm
  have hsize' : out.size = right.transpose.rows * left.transpose.columns :=
    hsize.trans (Nat.mul_comm ..)
  refine Array.ext_getElem? fun index ↦ ?_
  by_cases hindex : index < left.rows * right.columns
  · obtain ⟨hi, hj⟩ := div_mod_lt hindex
    have hplace : index / right.columns * right.columns + index % right.columns = index :=
      Nat.div_add_mod' ..
    have hentry : (multiply out right.transpose left.transpose)[
        index / right.columns * right.columns + index % right.columns]? = _ :=
      h.entry_eq out _ _ hinner' hsize' _ hj _ hi
    have hentry' := MatrixView.getElem?_productRowMajor hi hj
    rw [← MatrixView.sumEntry_eq_sum, MatrixView.sumEntry_transpose hinner, ← hentry', hplace]
      at hentry
    exact hentry
  · rw [Array.getElem?_eq_none, Array.getElem?_eq_none]
    · rw [MatrixView.size_productRowMajor]
      exact Nat.le_of_not_lt hindex
    · rw [h.size_eq out _ _ hinner' hsize', hsize]
      exact Nat.le_of_not_lt hindex

end Kernel

/-! ## Lengths -/

namespace GemmPlan

/-- The buffers have the lengths that the extents of the plan ask for. -/
structure Fits {α : Type} (plan : GemmPlan) (lhs rhs out : Array α) : Prop where
  lhs_eq : lhs.size = plan.m.toNat * plan.k.toNat
  rhs_eq : rhs.size = plan.k.toNat * plan.n.toNat
  out_eq : out.size = plan.m.toNat * plan.n.toNat

end GemmPlan

namespace Kernel

variable {α : Type} {plan : GemmPlan} {lhs rhs out : Array α} {multiply : Multiply α}

/-- A length that a word counts is right only for a product that fits a word. -/
theorem fitsProduct_iff (hlhs : lhs.size < Size.wordCount)
    (hrhs : rhs.size < Size.wordCount) (hout : out.size < Size.wordCount) :
    FitsProduct plan.m.toNat plan.k.toNat plan.n.toNat lhs.size rhs.size out.size ↔
      plan.Fits lhs rhs out :=
  ⟨fun h ↦ ⟨h.sizes.1, h.sizes.2.1, h.sizes.2.2⟩, fun h ↦
    ⟨Size.mul?_eq_some_iff.2 ⟨h.lhs_eq.symm, hlhs⟩, Size.mul?_eq_some_iff.2 ⟨h.rhs_eq.symm, hrhs⟩,
      Size.mul?_eq_some_iff.2 ⟨h.out_eq.symm, hout⟩⟩⟩

theorem gemmFits_eq_ok_true_iff {m k n left right result : Nat} :
    gemmFits m k n left right result = .ok true ↔ FitsProduct m k n left right result := by
  unfold gemmFits
  constructor
  · intro h
    obtain ⟨mk, hmk, h⟩ := bind_eq_ok_iff.1 h
    split at h
    · cases h
    · rename_i hlhs
      obtain ⟨kn, hkn, h⟩ := bind_eq_ok_iff.1 h
      split at h
      · cases h
      · rename_i hrhs
        obtain ⟨mn, hmn, h⟩ := bind_eq_ok_iff.1 h
        obtain rfl := Decidable.not_not.1 hlhs
        obtain rfl := Decidable.not_not.1 hrhs
        obtain rfl := of_decide_eq_true (Except.ok.inj h)
        exact ⟨Size.mul?_eq_some_iff.2 (times_eq_ok_iff.1 hmk),
          Size.mul?_eq_some_iff.2 (times_eq_ok_iff.1 hkn),
          Size.mul?_eq_some_iff.2 (times_eq_ok_iff.1 hmn)⟩
  · intro h
    obtain ⟨hmk, hkn, hmn⟩ := h.times
    simp [hmk, hkn, hmn]

/-- Buffers of other lengths are refused, or break the product down. -/
theorem exists_error_of_not_fits [Zero α]
    (h : ¬FitsProduct plan.m.toNat plan.k.toNat plan.n.toNat lhs.size rhs.size out.size) :
    ∃ fault, (gemmWith multiply plan lhs rhs out).ended = .error fault := by
  unfold gemmWith
  simp only
  cases hfits : gemmFits plan.m.toNat plan.k.toNat plan.n.toNat lhs.size rhs.size out.size with
  | error fault => exact ⟨fault, rfl⟩
  | ok fits =>
    cases fits with
    | false => exact ⟨_, rfl⟩
    | true => exact absurd (gemmFits_eq_ok_true_iff.1 hfits) h

variable [AddMonoid α]

/-- Without terms, every entry of a product is zero. -/
theorem MatrixView.productRowMajor_of_empty [Mul α] {left right : MatrixView α}
    (h : left.columns = 0) (hsize : out.size = left.rows * right.columns) :
    left.productRowMajor right = out.map fun _ ↦ 0 := by
  refine Array.ext ?_ fun index _ _ ↦ ?_
  · rw [size_productRowMajor, Array.size_map, hsize]
  · simp only [productRowMajor, Array.getElem_ofFn, Array.getElem_map, sumEntry, h]
    rfl

/-- Buffers of the right lengths hold the product afterwards, whatever the result held. -/
theorem gemmWith_eq [CommMagma α] (hmultiply : Multiplies multiply)
    (h : FitsProduct plan.m.toNat plan.k.toNat plan.n.toNat lhs.size rhs.size out.size) :
    gemmWith multiply plan lhs rhs out = ⟨.ok (),
      (MatrixView.operand lhs plan.m.toNat plan.k.toNat plan.spec.transposeLhs).productRowMajor
        (MatrixView.operand rhs plan.k.toNat plan.n.toNat plan.spec.transposeRhs)⟩ := by
  have hsize : out.size =
      (MatrixView.operand lhs plan.m.toNat plan.k.toNat plan.spec.transposeLhs).rows *
        (MatrixView.operand rhs plan.k.toNat plan.n.toNat plan.spec.transposeRhs).columns := by
    rw [MatrixView.rows_operand, MatrixView.columns_operand, h.sizes.2.2]
  unfold gemmWith
  simp only [gemmFits_eq_ok_true_iff.2 h, ok_bind, Bool.not_true, Bool.false_eq_true, if_false]
  split
  · rename_i hempty
    have hnone : out.size = 0 := by
      rw [h.sizes.2.2]
      rcases hempty with hm | hn
      · rw [hm, Nat.zero_mul]
      · rw [hn, Nat.mul_zero]
    have hnone' := MatrixView.size_productRowMajor.trans (hsize.symm.trans hnone)
    rw [Array.eq_empty_of_size_eq_zero hnone, Array.eq_empty_of_size_eq_zero hnone']
    rfl
  · split
    · rename_i hk
      rw [MatrixView.productRowMajor_of_empty (MatrixView.columns_operand.trans hk) hsize]
      rfl
    · rw [hmultiply.transposes
        (MatrixView.columns_operand.trans MatrixView.rows_operand.symm) hsize]
      rfl

/-- Multiplying through a library that does what it promises fails exactly when some buffer does not
have the length that the plan asks for.  Otherwise the result holds, element for element, what the
sequential kernel leaves there, whatever it held before. -/
theorem gemmWith_refines_product [CommMagma α] (hmultiply : Multiplies multiply)
    (hlhs : lhs.size < Size.wordCount) (hrhs : rhs.size < Size.wordCount)
    (hout : out.size < Size.wordCount) :
    ((∃ fault, (gemmWith multiply plan lhs rhs out).ended = .error fault) ↔
      ¬plan.Fits lhs rhs out) ∧
    (plan.Fits lhs rhs out → ∀ old : Array α, old.size = out.size →
      gemmWith multiply plan lhs rhs out =
          product plan.spec plan.m.toNat plan.k.toNat plan.n.toNat lhs rhs old ∧
        (gemmWith multiply plan lhs rhs out).ended = .ok ()) := by
  rw [← fitsProduct_iff hlhs hrhs hout]
  refine ⟨⟨fun ⟨fault, hfault⟩ hfits ↦ ?_, exists_error_of_not_fits⟩, fun hfits old hold ↦ ?_⟩
  · rw [gemmWith_eq hmultiply hfits] at hfault
    cases hfault
  · have hfits' : FitsProduct plan.m.toNat plan.k.toNat plan.n.toNat lhs.size rhs.size
        old.size := by
      rw [hold]
      exact hfits
    rw [gemmWith_eq hmultiply hfits, product_eq hfits']
    exact ⟨rfl, rfl⟩

/-- The product of a column of two and a row of three entries, both stored transposed. -/
def outerPlan : GemmPlan := ⟨⟨true, true⟩, 2, 1, 3⟩

/-- A product without rows whose other operand has more elements than a word counts. -/
def vastPlan : GemmPlan := ⟨⟨false, false⟩, 0, 0x100000000, 0x100000000⟩

theorem gemmWith_refines_product_outerPlan :
    Multiplies (fun (_ : Array Int) left right ↦ left.productColumnMajor right) ∧
      gemm outerPlan #[(2 : Int), -3] #[1, 5, 7] #[9, 9, 9, 9, 9, 9] =
        product ⟨true, true⟩ 2 1 3 #[2, -3] #[1, 5, 7] #[0, 0, 0, 0, 0, 0] ∧
      (∃ fault, (gemm outerPlan #[(2 : Int), -3] #[1, 5] #[9, 9, 9, 9, 9, 9]).ended =
        .error fault) ∧
      ∃ fault, (gemm vastPlan (#[] : Array Int) #[] #[]).ended = .error fault := by
  have hlibrary := multiplies_productColumnMajor (α := Int)
  refine ⟨hlibrary, ?_, ?_, ?_⟩
  · exact ((gemmWith_refines_product hlibrary (by decide) (by decide) (by decide)).2
      (⟨rfl, rfl, rfl⟩ : outerPlan.Fits #[2, -3] #[1, 5, 7] #[9, 9, 9, 9, 9, 9])
      #[0, 0, 0, 0, 0, 0] rfl).1
  · exact (gemmWith_refines_product hlibrary (by decide) (by decide) (by decide)).1.2
      fun h : outerPlan.Fits #[2, -3] #[1, 5] #[9, 9, 9, 9, 9, 9] ↦ absurd h.rhs_eq (by decide)
  · exact (gemmWith_refines_product hlibrary (by decide) (by decide) (by decide)).1.2
      fun h : vastPlan.Fits #[] #[] #[] ↦ absurd h.rhs_eq (by decide)

end Kernel

end TensorEngine
