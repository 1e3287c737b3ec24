import TensorEngine.Proofs.Operation.Acceptance
import TensorEngine.Proofs.Operation.Count
import Mathlib.Algebra.BigOperators.Group.List.Basic
import Mathlib.Order.Bounds.Basic

/-!
# When numbers of elements overflow

Extents are multiplied up from the front, and the first product beyond the words ends the count.
A zero ends the growth of the products as well: a count succeeds exactly when the extents in front
of the first zero multiply up to a word, and it is the product of all extents then.  So the counts
are exact where no extent is zero, and behind a zero nothing can overflow; but a zero that comes too
late does not help.

| count | extents |
|---|---|
| `elementCount?` | the extents themselves |
| `Shape.maxElementCount?` | the bounds of the axes |
| `ReshapeDim.explicitCount` | the given extents of the target |
-/

namespace TensorEngine

variable {dims dims' bounds : Dims} {start count : Nat}

/-! ## Products in front of a zero -/

/-- The extents in front of the first zero. -/
def beforeZero (dims : Dims) : Dims := dims.takeWhile (· ≠ 0)

/-- The extents in front of the first zero multiply up to a word. -/
def FitsWord (dims : Dims) : Prop := volume (beforeZero dims) < Size.wordCount

instance : Decidable (FitsWord dims) := inferInstanceAs (Decidable (_ < _))

theorem beforeZero_cons_zero : beforeZero (0 :: dims) = [] := rfl

theorem beforeZero_cons {extent : Extent} (h : extent ≠ 0) :
    beforeZero (extent :: dims) = extent :: beforeZero dims :=
  List.takeWhile_cons_of_pos (decide_eq_true h)

theorem beforeZero_of_nonzero (h : 0 ∉ dims) : beforeZero dims = dims := by
  induction dims with
  | nil => rfl
  | cons extent dims ih =>
    rw [List.mem_cons, not_or] at h
    rw [beforeZero_cons (Ne.symm h.1), ih h.2]

theorem volume_pos (h : 0 ∉ dims) : 0 < volume dims := by
  induction dims with
  | nil => exact Nat.one_pos
  | cons extent dims ih =>
    rw [List.mem_cons, not_or] at h
    have hextent : 0 < extent.toNat :=
      Nat.pos_of_ne_zero fun heq ↦ h.1 (UInt64.toNat_inj.1 heq).symm
    rw [volume_cons]
    exact Nat.mul_pos hextent (ih h.2)

theorem zero_notMem_filter : (0 : Extent) ∉ dims.filter (· ≠ 0) := by
  simp [List.mem_filter]

/-- In front of the first zero there are only extents that are not zero. -/
theorem beforeZero_prefix_filter : beforeZero dims <+: dims.filter (· ≠ 0) := by
  induction dims with
  | nil => exact List.prefix_rfl
  | cons extent dims ih =>
    by_cases hzero : extent = 0
    · rw [hzero, beforeZero_cons_zero]
      exact List.nil_prefix
    · rw [beforeZero_cons hzero, List.filter_cons, if_pos (decide_eq_true hzero)]
      exact List.cons_prefix_cons.2 ⟨rfl, ih⟩

theorem volume_beforeZero_pos : 0 < volume (beforeZero dims) :=
  volume_pos fun hmem ↦ zero_notMem_filter (beforeZero_prefix_filter.subset hmem)

/-! ## Counts -/

theorem countFrom_zero : countFrom 0 dims = some 0 := by
  induction dims with
  | nil => rfl
  | cons extent dims ih =>
    rw [countFrom_cons, Size.mul?_eq_some_iff.2 ⟨Nat.zero_mul _, by decide⟩, Option.bind_some, ih]

/-- A count succeeds when the extents in front of the first zero multiply up to a word. -/
theorem countFrom_eq_ite (h : start < Size.wordCount) : countFrom start dims =
    if start * volume (beforeZero dims) < Size.wordCount then some (start * volume dims)
    else none := by
  induction dims generalizing start with
  | nil =>
    rw [beforeZero, List.takeWhile_nil, volume_nil, Nat.mul_one, if_pos h]
    rfl
  | cons extent dims ih =>
    by_cases hzero : extent = 0
    · have hstep : Size.mul? start extent.toNat = some 0 :=
        Size.mul?_eq_some_iff.2 ⟨by rw [hzero]; exact Nat.mul_zero _, by decide⟩
      rw [countFrom_cons, hstep, Option.bind_some, countFrom_zero, hzero, beforeZero_cons_zero,
        volume_nil, Nat.mul_one, if_pos h, volume_cons, UInt64.toNat_zero, Nat.zero_mul,
        Nat.mul_zero]
    · rw [countFrom_cons, beforeZero_cons hzero, volume_cons, volume_cons, ← Nat.mul_assoc,
        ← Nat.mul_assoc]
      by_cases hstep : start * extent.toNat < Size.wordCount
      · rw [Size.mul?_eq_some_iff.2 ⟨rfl, hstep⟩, Option.bind_some, ih hstep]
      · have hgrows : start * extent.toNat ≤ start * extent.toNat * volume (beforeZero dims) :=
          Nat.le_mul_of_pos_right _ volume_beforeZero_pos
        rw [Size.mul?, if_neg hstep, Option.bind_none, if_neg (by omega)]

/-- The number of elements is the product of all extents, when those in front of the first zero
multiply up to a word. -/
theorem elementCount?_eq_ite :
    elementCount? dims = if FitsWord dims then some (volume dims) else none := by
  rw [elementCount?_eq, countFrom_eq_ite (by decide), Nat.one_mul, Nat.one_mul]
  rfl

theorem elementCount?_eq_none_iff : elementCount? dims = none ↔ ¬ FitsWord dims := by
  rw [elementCount?_eq_ite]
  split <;> simp [*]

/-- Without a zero, the product of all extents decides. -/
theorem fitsWord_iff_of_nonzero (h : 0 ∉ dims) : FitsWord dims ↔ volume dims < Size.wordCount := by
  rw [FitsWord, beforeZero_of_nonzero h]

/-- When the extents that are not zero multiply up to a word, it does not matter where zeros
are. -/
theorem fitsWord_of_filter (h : volume (dims.filter (· ≠ 0)) < Size.wordCount) :
    FitsWord dims := by
  obtain ⟨rest, hrest⟩ : beforeZero dims <+: dims.filter (· ≠ 0) := beforeZero_prefix_filter
  have hpos : 0 < volume rest := volume_pos fun hmem ↦
    zero_notMem_filter (hrest ▸ List.mem_append_right _ hmem)
  rw [← hrest, volume_append] at h
  exact Nat.lt_of_le_of_lt (Nat.le_mul_of_pos_right _ hpos) h

theorem volume_perm (h : dims.Perm dims') : volume dims = volume dims' :=
  (h.map UInt64.toNat).prod_eq

/-- Two orders of the same extents have the same number of elements, unless there is a zero among
extents that multiply up beyond the words. -/
theorem elementCount?_perm (h : dims.Perm dims')
    (hfits : 0 ∈ dims → volume (dims.filter (· ≠ 0)) < Size.wordCount) :
    elementCount? dims = elementCount? dims' := by
  have hsame : FitsWord dims ↔ FitsWord dims' := by
    by_cases hzero : 0 ∈ dims
    · have hfilter := hfits hzero
      have hfilter' := volume_perm (h.filter (· ≠ 0)) ▸ hfilter
      exact iff_of_true (fitsWord_of_filter hfilter) (fitsWord_of_filter hfilter')
    · have hzero' : 0 ∉ dims' := fun hmem ↦ hzero (h.mem_iff.2 hmem)
      rw [fitsWord_iff_of_nonzero hzero, fitsWord_iff_of_nonzero hzero', volume_perm h]
  rw [elementCount?_eq_ite, elementCount?_eq_ite, volume_perm h]
  simp only [hsame]

/-! ## Bounded shapes -/

theorem volume_mono
    (h : List.Forall₂ (fun extent bound ↦ extent.toNat ≤ bound.toNat) dims bounds) :
    volume dims ≤ volume bounds := by
  induction h with
  | nil => exact Nat.le_refl _
  | cons hle _ ih =>
    rw [volume_cons, volume_cons]
    exact Nat.mul_le_mul hle ih

namespace Shape

variable {shape : Shape}

/-- The bounds of all axes, when every axis has one. -/
def upperBounds? (shape : Shape) : Option Dims := shape.dims.mapM Dim.upperBound?

theorem maxElementCount?_eq (h : shape.upperBounds? = some bounds) :
    shape.maxElementCount? = elementCount? bounds := by
  replace h : List.Forall₂ (fun dim bound ↦ dim.upperBound? = some bound) shape.dims bounds :=
    mapM_eq_some_iff.1 h
  rw [maxElementCount?, elementCount?]
  generalize shape.dims = axes at h
  generalize (1 : Nat) = start
  induction h generalizing start with
  | nil => rfl
  | cons hbound _ ih =>
    rw [List.foldlM_cons, List.foldlM_cons, hbound]
    exact congrArg _ (funext ih)

/-- No accepted extents have more elements than the bounds. -/
theorem volume_le_upperBounds (h : shape.upperBounds? = some bounds) (hdims : shape.accepts dims) :
    volume dims ≤ volume bounds :=
  volume_mono (forall₂_trans (accepts_iff.1 hdims).flip (mapM_eq_some_iff.1 h)
    fun _ _ _ ↦ Dim.toNat_le_upperBound)

/-- A shape that accepts anything accepts its bounds. -/
theorem accepts_upperBounds (h : shape.upperBounds? = some bounds) (hdims : shape.accepts dims) :
    shape.accepts bounds := by
  replace h := mapM_eq_some_iff.1 h
  replace hdims := accepts_iff.1 hdims
  rw [accepts_iff]
  generalize shape.dims = axes at h hdims
  induction h generalizing dims with
  | nil => exact .nil
  | cons hbound _ ih =>
    obtain ⟨extent, rest, hextent, hrest, rfl⟩ := List.forall₂_cons_left_iff.1 hdims
    exact .cons (Dim.contains_upperBound hextent hbound) (ih hrest)

/-- The largest number of elements is that of the bounds. -/
theorem isGreatest_volume (h : shape.upperBounds? = some bounds)
    (haccepts : ∃ dims, shape.accepts dims) :
    IsGreatest {count | ∃ dims, shape.accepts dims ∧ volume dims = count} (volume bounds) := by
  obtain ⟨dims, hdims⟩ := haccepts
  refine ⟨⟨bounds, accepts_upperBounds h hdims, rfl⟩, ?_⟩
  rintro _ ⟨other, hother, rfl⟩
  exact volume_le_upperBounds h hother

end Shape

/-! ## Reshapes -/

/-- The failures that blame a product beyond the words. -/
def InferenceError.IsOverflow : InferenceError → Prop
  | .inputOverflow _ | .reshapeOverflow => True
  | _ => False

section Reshapes

variable {target : List ReshapeDim} {input : Dims} {error : InferenceError}

def explicitExtents (target : List ReshapeDim) : Dims := target.filterMap ReshapeDim.explicit?

/-- Only given extents that do not fit are an overflow of the target. -/
theorem overflow_of_explicitCount (h : ReshapeDim.explicitCount target = .error error)
    (herror : error.IsOverflow) : ¬ FitsWord (explicitExtents target) := by
  unfold ReshapeDim.explicitCount at h
  split at h
  · exact elementCount?_eq_none_iff.1 ‹_›
  · split at h <;> cases h
    exact herror.elim

theorem explicitCount_of_not_fitsWord (h : ¬ FitsWord (explicitExtents target)) :
    ReshapeDim.explicitCount target = .error .reshapeOverflow := by
  have hnone : elementCount? (target.filterMap ReshapeDim.explicit?) = none :=
    elementCount?_eq_none_iff.2 h
  rw [ReshapeDim.explicitCount, hnone]

theorem not_isOverflow_of_inferExtent {total explicit : Nat}
    (h : ReshapeDim.inferExtent total explicit = .error error) : ¬ error.IsOverflow := by
  unfold ReshapeDim.inferExtent at h
  split at h <;> cases h
  exact id

/-- An invocation of a reshape is refused for an overflow when the extents of its operand or the
given extents of its target do not fit. -/
theorem overflow_outputDims_iff :
    (∃ error, (OpSpec.reshape target).outputDims [input] = .error error ∧ error.IsOverflow) ↔
      ¬ FitsWord input ∨ ¬ FitsWord (explicitExtents target) := by
  constructor
  · rintro ⟨error, h, herror⟩
    unfold OpSpec.outputDims at h
    cases htotal : elementCount? input with
    | none => exact .inl (elementCount?_eq_none_iff.1 htotal)
    | some total =>
      simp only [htotal] at h
      rcases bind_eq_error_iff.1 h with h | ⟨explicit, _, h⟩
      · exact .inr (overflow_of_explicitCount h herror)
      · rcases bind_eq_error_iff.1 h with h | ⟨dims, _, h⟩
        · obtain ⟨axis, _, haxis⟩ := mapM_eq_error h
          cases axis with
          | explicit value => cases haxis
          | infer => exact absurd herror (not_isOverflow_of_inferExtent haxis)
        · split at h <;> cases h
          exact herror.elim
  · intro h
    by_cases hinput : FitsWord input
    · have htarget := explicitCount_of_not_fitsWord (h.resolve_left (not_not.2 hinput))
      refine ⟨.reshapeOverflow, ?_, trivial⟩
      rw [OpSpec.outputDims, elementCount?_eq_ite, if_pos hinput, htarget]
      rfl
    · refine ⟨.inputOverflow input, ?_, trivial⟩
      rw [OpSpec.outputDims, elementCount?_eq_none_iff.2 hinput]
      rfl

/-- The declaration of a reshape is refused for an overflow when the given extents of its target do
not fit. -/
theorem overflow_outputLayout_iff {layout : Layout} :
    (∃ error, (OpSpec.reshape target).outputLayout [layout] = .error error ∧ error.IsOverflow) ↔
      ¬ FitsWord (explicitExtents target) := by
  constructor
  · rintro ⟨error, h, herror⟩
    rcases bind_eq_error_iff.1 h with h | ⟨explicit, _, h⟩
    · exact overflow_of_explicitCount h herror
    · generalize layout.shape.staticDims?.bind elementCount? = total at h
      rcases bind_eq_error_iff.1 h with h | ⟨dims, _, h⟩
      · obtain ⟨axis, _, haxis⟩ := mapM_eq_error h
        cases axis with
        | explicit value => cases haxis
        | infer =>
          cases total with
          | none => cases haxis
          | some total =>
            exact absurd herror (not_isOverflow_of_inferExtent (map_eq_error_iff.1 haxis))
      · cases total with
        | none => cases h
        | some total =>
          dsimp only at h
          split at h <;> cases h
          exact herror.elim
  · intro h
    refine ⟨.reshapeOverflow, ?_, trivial⟩
    rw [OpSpec.outputLayout, explicitCount_of_not_fitsWord h]
    rfl

end Reshapes

/-! ## Exactness -/

/-- How exact the counts are.  The number of elements of extents is their product, as long as the
extents in front of the first zero multiply up to a word; without a zero this is asked of the
product itself.  So the order of the axes shows only when there is a zero among extents that
multiply up beyond the words.  The largest number of elements of a bounded shape is counted in the
same way from the bounds of its axes, whose product is the largest number of elements of accepted
extents.  A reshape is refused for an overflow only when the extents of its operand or the given
extents of its target do not fit in this sense, and always then. -/
theorem elementCount?_exact :
    (∀ dims : Dims, elementCount? dims = if FitsWord dims then some (volume dims) else none) ∧
    (∀ dims : Dims, 0 ∉ dims → (FitsWord dims ↔ volume dims < Size.wordCount)) ∧
    (∀ dims dims' : Dims, dims.Perm dims' →
      (0 ∈ dims → volume (dims.filter (· ≠ 0)) < Size.wordCount) →
      elementCount? dims = elementCount? dims') ∧
    (∀ (shape : Shape) (bounds : Dims), shape.upperBounds? = some bounds →
      (shape.maxElementCount? = if FitsWord bounds then some (volume bounds) else none) ∧
      ((∃ dims, shape.accepts dims) →
        IsGreatest {count | ∃ dims, shape.accepts dims ∧ volume dims = count}
          (volume bounds))) ∧
    (∀ (target : List ReshapeDim) (input : Dims),
      (∃ error, (OpSpec.reshape target).outputDims [input] = .error error ∧ error.IsOverflow) ↔
        ¬ FitsWord input ∨ ¬ FitsWord (explicitExtents target)) ∧
    (∀ (target : List ReshapeDim) (layout : Layout),
      (∃ error, (OpSpec.reshape target).outputLayout [layout] = .error error ∧
        error.IsOverflow) ↔ ¬ FitsWord (explicitExtents target)) :=
  ⟨fun _ ↦ elementCount?_eq_ite, fun _ ↦ fitsWord_iff_of_nonzero, fun _ _ ↦ elementCount?_perm,
    fun _ _ h ↦ ⟨(Shape.maxElementCount?_eq h).trans elementCount?_eq_ite,
      Shape.isGreatest_volume h⟩,
    fun _ _ ↦ overflow_outputDims_iff, fun _ _ ↦ overflow_outputLayout_iff⟩

/-- Two large axes and an empty one.  In front, the empty one ends the count; behind them it comes
too late, for a declared shape and for a reshape to nothing as well. -/
theorem elementCount?_depends_on_order :
    volume [0x100000000, 0x100000000, 0] = 0 ∧
    elementCount? [0, 0x100000000, 0x100000000] = some 0 ∧
    elementCount? [0x100000000, 0x100000000, 0] = none ∧
    (Shape.ofDims [0x100000000, 0x100000000, 0]).maxElementCount? = none ∧
    (Shape.ofDims [0x100000000, 0x100000000, 0]).accepts [0x100000000, 0x100000000, 0] ∧
    (OpSpec.reshape [.explicit 0]).outputDims [[0x100000000, 0x100000000, 0]] =
      .error (.inputOverflow [0x100000000, 0x100000000, 0]) := by
  decide

/-- Up to eight rows of at most four elements. -/
def fewRows : Shape := ⟨[.range 1 8, .range 0 4]⟩

/-- Extents that just fit in both orders, and rows that may be missing but not without a bound. -/
theorem elementCount?_exact_fewRows :
    (FitsWord [2, 0x4000000000000000] ↔ volume [2, 0x4000000000000000] < Size.wordCount) ∧
    elementCount? [2, 0, 0x4000000000000000] = elementCount? [0, 0x4000000000000000, 2] ∧
    fewRows.upperBounds? = some [8, 4] ∧ fewRows.accepts [3, 0] ∧
    IsGreatest {count | ∃ dims, fewRows.accepts dims ∧ volume dims = count} (volume [8, 4]) :=
  ⟨elementCount?_exact.2.1 _ (by decide), elementCount?_exact.2.2.1 _ _ (by decide) (by decide),
    rfl, rfl, (elementCount?_exact.2.2.2.1 fewRows [8, 4] rfl).2 ⟨[3, 0], rfl⟩⟩

end TensorEngine
