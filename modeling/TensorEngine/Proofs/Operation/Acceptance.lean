import TensorEngine.Operation.Inference
import TensorEngine.Proofs.Sequencing

/-!
# Accepted extents

Which extents a declared shape accepts, and what the two small operations of inference on axes do
to them: merging two axes keeps exactly the extents that both admit, and an axis whose extent is
known admits no other.
-/

namespace TensorEngine

variable {left right dim : Dim} {extent low low' high high' : Extent} {axes axes' : List Dim}
  {shape : Shape} {dims dims' : Dims}

namespace Dim

theorem contains_fixed {value : Extent} : (fixed value).contains extent ↔ value = extent := by
  simp [contains]

theorem contains_range : (range low high).contains extent ↔ low ≤ extent ∧ extent ≤ high := by
  simp [contains]

/-! ## Bounded axes -/

/-- An admitted extent is within the bound of the axis. -/
theorem toNat_le_upperBound {bound : Extent} (h : dim.contains extent)
    (hbound : dim.upperBound? = some bound) : extent.toNat ≤ bound.toNat := by
  cases dim with
  | fixed value =>
    obtain rfl := contains_fixed.1 h
    exact Nat.le_of_eq (congrArg UInt64.toNat (Option.some.inj hbound))
  | range low high =>
    obtain rfl := Option.some.inj hbound
    exact UInt64.le_iff_toNat_le.1 (contains_range.1 h).2
  | unbounded => cases hbound

/-- An axis that admits anything admits its bound. -/
theorem contains_upperBound {bound : Extent} (h : dim.contains extent)
    (hbound : dim.upperBound? = some bound) : dim.contains bound := by
  cases dim with
  | fixed value => exact contains_fixed.2 (Option.some.inj hbound)
  | range low high =>
    obtain rfl := Option.some.inj hbound
    obtain ⟨hlow, hhigh⟩ := contains_range.1 h
    exact contains_range.2 ⟨UInt64.le_trans hlow hhigh, UInt64.le_refl _⟩
  | unbounded => cases hbound

/-! ## Merged axes -/

private theorem larger_le_iff :
    (if low < low' then low' else low) ≤ extent ↔ low ≤ extent ∧ low' ≤ extent := by
  split <;> simp only [UInt64.le_iff_toNat_le, UInt64.lt_iff_toNat_lt] at * <;> omega

private theorem le_smaller_iff :
    extent ≤ (if high' < high then high' else high) ↔ extent ≤ high ∧ extent ≤ high' := by
  split <;> simp only [UInt64.le_iff_toNat_le, UInt64.lt_iff_toNat_lt] at * <;> omega

/-- Axes merge when some extent is admitted by both. -/
theorem exists_merge (hleft : left.contains extent) (hright : right.contains extent) :
    ∃ dim, left.merge right = .ok dim := by
  fun_cases merge left right with
  | case4 x y hne =>
    rw [contains_fixed] at hleft hright
    exact absurd (hleft.trans hright.symm) hne
  | case6 x min max houtside =>
    rw [contains_fixed] at hleft
    exact absurd (hleft ▸ hright) houtside
  | case8 min max x houtside =>
    rw [contains_fixed] at hright
    exact absurd (hright ▸ hleft) houtside
  | case9 leftMin leftMax rightMin rightMax min max hdisjoint =>
    rw [contains_range] at hleft hright
    have hmin : min ≤ extent := larger_le_iff.2 ⟨hleft.1, hright.1⟩
    have hmax : extent ≤ max := le_smaller_iff.2 ⟨hleft.2, hright.2⟩
    simp only [UInt64.le_iff_toNat_le, UInt64.lt_iff_toNat_lt] at hmin hmax hdisjoint
    omega
  | _ => exact ⟨_, rfl⟩

/-- The merged axis admits exactly the extents that both axes admit. -/
theorem contains_merge (h : left.merge right = .ok dim) :
    dim.contains extent ↔ left.contains extent ∧ right.contains extent := by
  revert h
  fun_cases merge left right with
  | case4 | case6 | case8 | case9 => exact nofun
  | case1 | case2 =>
    rintro ⟨⟩
    simp [contains]
  | case3 x =>
    rintro ⟨⟩
    exact (and_self_iff).symm
  | case5 x min max hwithin =>
    rintro ⟨⟩
    rw [contains_fixed, iff_self_and]
    rintro rfl
    exact hwithin
  | case7 min max x hwithin =>
    rintro ⟨⟩
    rw [contains_fixed, iff_and_self]
    rintro rfl
    exact hwithin
  | case10 leftMin leftMax rightMin rightMax min max =>
    rintro ⟨⟩
    rw [contains_range, contains_range, contains_range, larger_le_iff, le_smaller_iff]
    tauto

/-- Known extents merge when they agree. -/
theorem merge_fixed (h : (fixed low).merge (fixed high) = .ok dim) :
    low = high ∧ dim = fixed low := by
  rw [merge] at h
  split at h
  · exact ⟨‹_›, (Except.ok.inj h).symm⟩
  · cases h

theorem eq_fixed (h : dim.fixed? = some extent) : dim = .fixed extent := by
  cases dim with
  | fixed value => rw [Option.some.inj h]
  | range _ _ | unbounded => cases h

end Dim

/-! ## Shapes -/

namespace Shape

/-- Extents are accepted when each axis admits its own. -/
theorem accepts_iff :
    shape.accepts dims ↔ List.Forall₂ (fun dim extent ↦ dim.contains extent) shape.dims dims := by
  rw [accepts, Bool.and_eq_true, decide_eq_true_eq, List.all_eq_true, List.forall₂_iff_zip, eq_comm]
  simp only [Prod.forall]

/-- A shape whose extents are known is the shape of these extents. -/
theorem staticDims?_eq_some_iff : shape.staticDims? = some dims ↔ shape = .ofDims dims := by
  rw [staticDims?, mapM_eq_some_iff]
  constructor
  · intro h
    replace h : List.Forall₂ (fun dim extent ↦ dim = Dim.fixed extent) shape.dims dims :=
      h.imp fun _ _ ↦ Dim.eq_fixed
    rw [← List.forall₂_map_right_iff (f := Dim.fixed), List.forall₂_eq_eq_eq] at h
    exact congrArg mk h
  · rintro rfl
    exact List.forall₂_map_left_iff.2 (List.forall₂_same.2 fun _ _ ↦ rfl)

/-- A shape whose extents are known accepts no others. -/
theorem accepts_ofDims_iff : (ofDims dims).accepts dims' ↔ dims' = dims := by
  rw [accepts_iff, ofDims, List.forall₂_map_left_iff, eq_comm]
  simp only [Dim.contains_fixed, List.forall₂_eq_eq_eq]

/-- All extents of a shape are known when those of its axes are. -/
theorem exists_staticDims (h : shape.isStatic = true) :
    ∃ dims, shape.staticDims? = some dims ∧ dims.length = shape.rank := by
  refine ⟨shape.dims.map fun dim ↦ dim.fixed?.getD 0, mapM_eq_some_iff.2 ?_, List.length_map _⟩
  rw [List.forall₂_map_right_iff, List.forall₂_same]
  intro dim hmem
  have hfixed : dim.isFixed = true := List.all_eq_true.1 h dim hmem
  cases dim with
  | fixed => rfl
  | range | unbounded => cases hfixed

/-- A shape with known extents that accepts extents is the shape of these. -/
theorem eq_ofDims_of_accepts (hstatic : shape.isStatic = true) (h : shape.accepts dims) :
    shape = .ofDims dims := by
  obtain ⟨known, hknown, _⟩ := exists_staticDims hstatic
  obtain rfl := staticDims?_eq_some_iff.1 hknown
  rw [accepts_ofDims_iff.1 h]

theorem length_of_accepts (h : shape.accepts dims) : dims.length = shape.rank :=
  (accepts_iff.1 h).length_eq.symm

end Shape

/-! ## Shapes merged axis by axis -/

/-- What two shapes merge into accepts what both accept. -/
theorem forall₂_contains_merged {merged : List Dim}
    (h : (axes.zip axes').mapM (fun (left, right) ↦ left.merge right) = .ok merged)
    (hleft : List.Forall₂ (fun dim extent ↦ dim.contains extent) axes dims)
    (hright : List.Forall₂ (fun dim extent ↦ dim.contains extent) axes' dims) :
    List.Forall₂ (fun dim extent ↦ dim.contains extent) merged dims := by
  rw [mapM_eq_ok_iff] at h
  induction hleft generalizing axes' merged with
  | nil =>
    rw [List.zip_nil_left, List.forall₂_nil_left_iff] at h
    exact h ▸ .nil
  | cons hdim _ ih =>
    obtain ⟨right, axes', hdim', hrest, rfl⟩ := List.forall₂_cons_right_iff.1 hright
    rw [List.zip_cons_cons] at h
    obtain ⟨dim, merged, hmerge, hmerged, rfl⟩ := List.forall₂_cons_left_iff.1 h
    exact .cons ((Dim.contains_merge hmerge).2 ⟨hdim, hdim'⟩) (ih hmerged hrest)

/-- Two shapes that accept the same extents merge. -/
theorem exists_merged (hleft : List.Forall₂ (fun dim extent ↦ dim.contains extent) axes dims)
    (hright : List.Forall₂ (fun dim extent ↦ dim.contains extent) axes' dims) :
    ∃ merged, (axes.zip axes').mapM (fun (left, right) ↦ left.merge right) = .ok merged := by
  simp only [mapM_eq_ok_iff]
  refine exists_forall₂ fun (left, right) hmem ↦ ?_
  induction hleft generalizing axes' with
  | nil => simp at hmem
  | cons hdim _ ih =>
    obtain ⟨other, axes', hdim', hrest, rfl⟩ := List.forall₂_cons_right_iff.1 hright
    rw [List.zip_cons_cons, List.mem_cons] at hmem
    rcases hmem with hmem | hmem
    · obtain ⟨rfl, rfl⟩ := Prod.mk.inj hmem
      exact Dim.exists_merge hdim hdim'
    · exact ih hrest hmem

/-- Shapes with known extents merge only when they agree. -/
theorem merged_fixed {merged : List Dim} (hlength : dims.length = dims'.length)
    (h : ((dims.map Dim.fixed).zip (dims'.map Dim.fixed)).mapM
      (fun (left, right) ↦ left.merge right) = .ok merged) :
    dims = dims' ∧ merged = dims.map Dim.fixed := by
  rw [mapM_eq_ok_iff] at h
  induction dims generalizing dims' merged with
  | nil =>
    rw [List.map_nil, List.zip_nil_left, List.forall₂_nil_left_iff] at h
    exact ⟨(List.length_eq_zero_iff.1 hlength.symm).symm, h⟩
  | cons extent dims ih =>
    cases dims' with
    | nil => cases hlength
    | cons extent' dims' =>
      rw [List.map_cons, List.map_cons, List.zip_cons_cons] at h
      obtain ⟨dim, merged, hmerge, hmerged, rfl⟩ := List.forall₂_cons_left_iff.1 h
      obtain ⟨rfl, rfl⟩ := ih (Nat.succ.inj hlength) hmerged
      obtain ⟨rfl, rfl⟩ := Dim.merge_fixed hmerge
      exact ⟨rfl, rfl⟩

end TensorEngine
