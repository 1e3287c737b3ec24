import TensorEngine.Operation.Inference
import TensorEngine.Proofs.Sequencing
import Mathlib.Algebra.Group.Nat.Defs

/-!
# Numbers of elements

How many elements the result of an operation has, given how many its operands have: a reshape has
as many as its operand, and a reduction has one for every row.
-/

namespace TensorEngine

variable {dims rest target : Dims} {start count total : Nat}

/-! ## Products of extents -/

/-- The product of extents, of any size. -/
def volume (dims : Dims) : Nat := (dims.map UInt64.toNat).prod

@[simp] theorem volume_nil : volume [] = 1 := rfl

theorem volume_cons {extent : Extent} : volume (extent :: dims) = extent.toNat * volume dims := by
  rw [volume, List.map_cons, List.prod_cons, volume]

theorem volume_append : volume (dims ++ rest) = volume dims * volume rest := by
  rw [volume, List.map_append, List.prod_append, volume, volume]

/-- Multiplies a number up by extents, as long as the products fit a word. -/
def countFrom (start : Nat) (dims : Dims) : Option Nat :=
  dims.foldlM (fun count extent ↦ Size.mul? count extent.toNat) start

theorem countFrom_cons {extent : Extent} : countFrom start (extent :: dims) =
    (Size.mul? start extent.toNat).bind fun count ↦ countFrom count dims := rfl

theorem countFrom_append : countFrom start (dims ++ rest) =
    (countFrom start dims).bind fun count ↦ countFrom count rest := by
  rw [countFrom, List.foldlM_append]
  rfl

theorem countFrom_eq_some (h : countFrom start dims = some count) :
    count = start * volume dims ∧ (start < Size.wordCount → count < Size.wordCount) := by
  induction dims generalizing start with
  | nil =>
    obtain rfl : start = count := Option.some.inj h
    simp [volume]
  | cons extent dims ih =>
    rw [countFrom_cons, Option.bind_eq_some_iff] at h
    obtain ⟨next, hnext, h⟩ := h
    obtain ⟨rfl, hlt⟩ := Size.mul?_eq_some_iff.1 hnext
    obtain ⟨rfl, hword⟩ := ih h
    refine ⟨?_, fun _ ↦ hword hlt⟩
    simp only [volume, List.map_cons, List.prod_cons, Nat.mul_assoc]

/-- When no extent is zero, only the last product has to fit. -/
theorem countFrom_of_ne_zero (hzero : volume dims ≠ 0)
    (hword : start * volume dims < Size.wordCount) :
    countFrom start dims = some (start * volume dims) := by
  induction dims generalizing start with
  | nil => simp [countFrom, volume]
  | cons extent dims ih =>
    simp only [volume, List.map_cons, List.prod_cons] at hzero hword ⊢
    have hrest : volume dims ≠ 0 := Nat.ne_zero_of_mul_ne_zero_right hzero
    rw [← Nat.mul_assoc] at hword ⊢
    have hstep : start * extent.toNat < Size.wordCount :=
      Nat.lt_of_le_of_lt (Nat.le_mul_of_pos_right _ (Nat.pos_of_ne_zero hrest)) hword
    rw [countFrom_cons, Size.mul?_eq_some_iff.2 ⟨rfl, hstep⟩, Option.bind_some]
    exact ih hrest hword

theorem elementCount?_eq : elementCount? dims = countFrom 1 dims := rfl

theorem lt_wordCount_of_elementCount? (h : elementCount? dims = some count) :
    count < Size.wordCount :=
  (countFrom_eq_some h).2 (by decide)

theorem eq_volume_of_elementCount? (h : elementCount? dims = some count) : count = volume dims :=
  (countFrom_eq_some h).1.trans (Nat.one_mul _)

/-! ## Reshapes -/

/-- The extent of one axis of the target of a reshape. -/
abbrev ReshapeDim.resolve (total explicit : Nat) : ReshapeDim → Except InferenceError Extent
  | .explicit extent => .ok extent
  | .infer => ReshapeDim.inferExtent total explicit

/-- The given extents of a target are counted when they fit and at most one is left to infer. -/
theorem ReshapeDim.explicitCount_eq_ok_iff {target : List ReshapeDim} {explicit : Nat} :
    explicitCount target = .ok explicit ↔
      elementCount? (target.filterMap explicit?) = some explicit ∧
        target.countP (· = .infer) ≤ 1 := by
  unfold explicitCount
  cases elementCount? (target.filterMap explicit?) with
  | none => simp
  | some count =>
    by_cases hseveral : 1 < target.countP (· = .infer)
    · simp [hseveral, Nat.not_le.2 hseveral]
    · simp [hseveral, Nat.not_lt.1 hseveral]

private theorem filterMap_explicit? {total explicit : Nat} {target : List ReshapeDim}
    (h : target.mapM (ReshapeDim.resolve total explicit) = .ok dims) (hinfer : .infer ∉ target) :
    target.filterMap ReshapeDim.explicit? = dims := by
  rw [mapM_eq_ok_iff] at h
  induction h with
  | nil => rfl
  | @cons dim extent target dims hdim _ ih =>
    rw [List.mem_cons, not_or] at hinfer
    cases dim with
    | infer => exact absurd rfl hinfer.1
    | explicit value =>
      obtain rfl := Except.ok.inj hdim
      rw [List.filterMap_cons, ReshapeDim.explicit?, ih hinfer.2]

private theorem elementCount?_infer {explicit : Nat} {front back : Dims} {extent : Extent}
    (hexplicit : elementCount? (front ++ back) = some explicit)
    (hextent : ReshapeDim.inferExtent total explicit = .ok extent)
    (htotal : total < Size.wordCount) : elementCount? (front ++ extent :: back) = some total := by
  unfold ReshapeDim.inferExtent at hextent
  split at hextent
  · cases hextent
  rename_i hdivides
  rw [not_or, not_not] at hdivides
  obtain ⟨hne, hdvd⟩ := hdivides
  have hquot : extent.toNat = total / explicit := by
    obtain rfl := Except.ok.inj hextent
    exact UInt64.toNat_ofNat_of_lt' (Nat.lt_of_le_of_lt (Nat.div_le_self _ _) htotal)
  rw [elementCount?_eq, countFrom_append, Option.bind_eq_some_iff] at hexplicit
  obtain ⟨mid, hmid, hback⟩ := hexplicit
  have hvolume := (countFrom_eq_some hback).1
  have htotal' : mid * extent.toNat * volume back = total := by
    rw [Nat.mul_right_comm, ← hvolume, hquot, Nat.mul_div_cancel' (Nat.dvd_of_mod_eq_zero hdvd)]
  have hzero : volume back ≠ 0 := Nat.ne_zero_of_mul_ne_zero_right (hvolume ▸ hne)
  have hstep : mid * extent.toNat < Size.wordCount := by
    refine Nat.lt_of_le_of_lt ?_ htotal
    rw [← htotal']
    exact Nat.le_mul_of_pos_right _ (Nat.pos_of_ne_zero hzero)
  rw [elementCount?_eq, countFrom_append, hmid, Option.bind_some, countFrom_cons,
    Size.mul?_eq_some_iff.2 ⟨rfl, hstep⟩, Option.bind_some, countFrom_of_ne_zero hzero, htotal']
  rw [htotal']
  exact htotal

/-- A reshape has as many elements as its operand. -/
theorem elementCount?_reshape {target : List ReshapeDim} {input : Dims}
    (h : (OpSpec.reshape target).outputDims [input] = .ok dims) :
    ∃ total, elementCount? input = some total ∧ elementCount? dims = some total := by
  unfold OpSpec.outputDims at h
  cases htotal : elementCount? input with
  | none => simp [htotal] at h
  | some total =>
    refine ⟨total, rfl, ?_⟩
    simp only [htotal] at h
    obtain ⟨explicit, hexplicit, h⟩ := bind_eq_ok_iff.1 h
    obtain ⟨dims', hdims, h⟩ := bind_eq_ok_iff.1 h
    replace hdims : target.mapM (ReshapeDim.resolve total explicit) = .ok dims' := hdims
    obtain ⟨hcount, hsingle⟩ := ReshapeDim.explicitCount_eq_ok_iff.1 hexplicit
    by_cases hinfer : .infer ∈ target
    · rw [if_neg (by simp [hinfer])] at h
      obtain rfl := Except.ok.inj h
      obtain ⟨front, back, rfl⟩ := List.append_of_mem hinfer
      have hnone : .infer ∉ front ∧ .infer ∉ back := by
        simp only [List.countP_append, List.countP_cons, decide_true, if_true] at hsingle
        have hfront : front.countP (· = .infer) = 0 := by omega
        have hback : back.countP (· = .infer) = 0 := by omega
        rw [List.countP_eq_zero] at hfront hback
        exact ⟨fun hmem ↦ by simpa using hfront _ hmem, fun hmem ↦ by simpa using hback _ hmem⟩
      simp only [List.mapM_append, List.mapM_cons, bind_eq_ok_iff, pure_eq_ok,
        Except.ok.injEq] at hdims
      obtain ⟨dims₁, hdims₁, _, ⟨extent, hextent, dims₂, hdims₂, rfl⟩, rfl⟩ := hdims
      refine elementCount?_infer ?_ hextent (lt_wordCount_of_elementCount? htotal)
      rw [← filterMap_explicit? hdims₁ hnone.1, ← filterMap_explicit? hdims₂ hnone.2, ← hcount,
        List.filterMap_append, List.filterMap_cons, ReshapeDim.explicit?]
    · by_cases hsame : total = explicit
      · rw [if_neg (by simp [hsame])] at h
        obtain rfl := Except.ok.inj h
        rw [hsame, ← hcount, filterMap_explicit? hdims hinfer]
      · rw [if_pos ⟨hinfer, hsame⟩] at h
        cases h

/-! ## Reductions -/

/-- The rows of the operand of a reduction: as many as the result has elements. -/
theorem elementCount?_reduce {spec : ReduceSpec} {input : Dims}
    (h : (OpSpec.reduce spec).outputDims [input] = .ok dims)
    (hcount : elementCount? input = some count) :
    ∃ rows, elementCount? dims = some rows ∧ rows * (input.getLast?.getD 1).toNat = count := by
  unfold OpSpec.outputDims at h
  simp only at h
  split at h
  · cases h
  rename_i hne
  obtain rfl := Except.ok.inj h
  obtain ⟨front, last, rfl⟩ : ∃ front last, input = front ++ [last] :=
    ⟨_, _, (List.dropLast_append_getLast hne).symm⟩
  rw [elementCount?_eq, countFrom_append, Option.bind_eq_some_iff] at hcount
  obtain ⟨rows, hrows, hlast⟩ := hcount
  have hrows' : rows < Size.wordCount := lt_wordCount_of_elementCount? hrows
  refine ⟨rows, ?_, ?_⟩
  · unfold ReduceSpec.reduceLast
    rw [List.dropLast_concat]
    split
    · rw [elementCount?_eq, countFrom_append, hrows, Option.bind_some, countFrom_cons,
        Size.mul?_eq_some_iff.2 ⟨rfl, by simpa using hrows'⟩, Option.bind_some]
      simp [countFrom]
    · exact hrows
  · rw [List.getLast?_concat, Option.getD_some]
    have hmul := (countFrom_eq_some hlast).1
    simpa [volume] using hmul.symm

/-! ## Matrix products -/

/-- Both operands of a matrix product have as many elements as its extents ask for, also when they
are stored transposed. -/
theorem volume_of_extents {spec : MatMulSpec} {lhs rhs : Dims} {m k n : Extent}
    (h : spec.extents lhs rhs = .ok (m, k, n)) :
    volume lhs = m.toNat * k.toNat ∧ volume rhs = k.toNat * n.toNat := by
  have hvolume : ∀ (transposed : Bool) (rows columns : Extent), volume [rows, columns] =
      (MatMulSpec.oriented transposed rows columns).1.toNat *
        (MatMulSpec.oriented transposed rows columns).2.toNat := by
    intro transposed rows columns
    cases transposed with
    | false => simp [volume, MatMulSpec.oriented]
    | true => simp [volume, MatMulSpec.oriented, Nat.mul_comm]
  unfold MatMulSpec.extents at h
  split at h
  · rename_i lhsRows lhsColumns rhsRows rhsColumns
    rw [hvolume spec.transposeLhs, hvolume spec.transposeRhs]
    generalize MatMulSpec.oriented spec.transposeLhs lhsRows lhsColumns = left at h
    generalize MatMulSpec.oriented spec.transposeRhs rhsRows rhsColumns = right at h
    obtain ⟨_, _⟩ := left
    obtain ⟨_, _⟩ := right
    simp only at h
    split at h
    · rename_i hsame
      simp only [Except.ok.injEq, Prod.mk.injEq] at h
      obtain ⟨rfl, rfl, rfl⟩ := h
      exact ⟨rfl, by rw [hsame]⟩
    · cases h
  · cases h

end TensorEngine
