import TensorEngine.Proofs.Operation.Acceptance
import TensorEngine.Proofs.Operation.Count

/-!
# Inference on layouts and on extents

An invocation gives operands extents that their declared layouts accept.  The layout inferred from
the declarations and the extents inferred for the invocation then fit together: inferred extents
are accepted by the inferred layout, an operation without a layout has no extents either, and
nothing is lost where all extents are known.
-/

namespace TensorEngine

variable {inputs : List Layout} {extents : List Dims} {lhs rhs input layout : Layout}
  {left right dims : Dims}

/-- Extents of operands, each accepted by its declared layout. -/
def Layout.AllAccept (inputs : List Layout) (extents : List Dims) : Prop :=
  List.Forall₂ (fun layout dims ↦ layout.shape.accepts dims) inputs extents

instance : Decidable (Layout.AllAccept inputs extents) :=
  inferInstanceAs (Decidable (List.Forall₂ _ _ _))

namespace OpSpec

/-- Whether an operation is defined for operands of these element types and for the format that it
asks for, whatever the extents. -/
def Admits : OpSpec → List Layout → Prop
  | .binary _, [lhs, rhs] => lhs.dtype = rhs.dtype
  | .unary function, [input] => function.checkType input.dtype = .ok ()
  | .matMul _, [lhs, rhs] => lhs.dtype = rhs.dtype ∧ lhs.dtype ≠ .u8
  | .reorder target, [_] => target ≠ .any
  | _, _ => True

/-- How the layout that an operation infers and the extents that it infers fit together. -/
structure Abstracts (op : OpSpec) (inputs : List Layout) (extents : List Dims) : Prop where
  sound : ∀ layout dims, op.outputLayout inputs = .ok layout → op.outputDims extents = .ok dims →
    layout.shape.accepts dims
  refused : ∀ error, op.outputLayout inputs = .error error → op.Admits inputs →
    ∃ error', op.outputDims extents = .error error'
  /-- Known extents stay known. -/
  exact : (∀ input ∈ inputs, input.isStatic) → (∀ dims ∈ extents, (elementCount? dims).isSome) →
    ∀ layout, op.outputLayout inputs = .ok layout →
      ∃ dims, op.outputDims extents = .ok dims ∧ layout.shape.staticDims? = some dims

/-- What never succeeds fails. -/
private theorem exists_error_of {x : Except InferenceError Dims} (h : ∀ dims, x ≠ .ok dims) :
    ∃ e, x = .error e := by
  cases x with
  | error e => exact ⟨e, rfl⟩
  | ok dims => exact absurd rfl (h dims)

/-! ## Numbers of operands -/

theorem outputLayout_of_length_ne {op : OpSpec} (h : inputs.length ≠ op.arity) :
    op.outputLayout inputs = .error (.arity op inputs.length) := by
  unfold outputLayout
  split <;> first | rfl | exact absurd rfl h

theorem outputDims_of_length_ne {op : OpSpec} (h : extents.length ≠ op.arity) :
    op.outputDims extents = .error (.arity op extents.length) := by
  unfold outputDims
  split <;> first | rfl | exact absurd rfl h

/-- With a wrong number of operands nothing is inferred. -/
theorem abstracts_of_length_ne {op : OpSpec} (h : inputs.length ≠ op.arity)
    (hlength : inputs.length = extents.length) : op.Abstracts inputs extents where
  sound _ _ hlayout := by simp [outputLayout_of_length_ne h] at hlayout
  refused _ _ _ := ⟨_, outputDims_of_length_ne (hlength ▸ h)⟩
  exact _ _ _ hlayout := by simp [outputLayout_of_length_ne h] at hlayout

/-! ## One operation at a time -/

theorem abstracts_parameter : parameter.Abstracts [] [] where
  sound := nofun
  refused _ _ _ := ⟨_, rfl⟩
  exact := nofun

theorem abstracts_constant {tensor : HostTensor} : (constant tensor).Abstracts [] [] where
  sound := by
    rintro _ _ ⟨⟩ ⟨⟩
    exact Shape.accepts_ofDims_iff.2 rfl
  refused := nofun
  exact := by
    rintro _ _ _ ⟨⟩
    exact ⟨_, rfl, Shape.staticDims?_eq_some_iff.2 rfl⟩

/-- An operation whose result has the shape of its operand. -/
theorem abstracts_of_same_shape {op : OpSpec} (h : input.shape.accepts dims)
    (hdims : op.outputDims [dims] = .ok dims)
    (hshape : ∀ layout, op.outputLayout [input] = .ok layout → layout.shape = input.shape)
    (hadmitted : op.Admits [input] → ∃ layout, op.outputLayout [input] = .ok layout) :
    op.Abstracts [input] [dims] where
  sound layout dims' hlayout hdims' := by
    obtain rfl := Except.ok.inj (hdims.symm.trans hdims')
    rwa [hshape _ hlayout]
  refused error hlayout hadmits := by
    obtain ⟨_, hok⟩ := hadmitted hadmits
    exact absurd (hlayout.symm.trans hok) error_ne_ok
  exact hstatic _ layout hlayout := by
    refine ⟨dims, hdims, Shape.staticDims?_eq_some_iff.2 ?_⟩
    rw [hshape _ hlayout]
    exact Shape.eq_ofDims_of_accepts (hstatic _ (List.mem_singleton_self _)) h

theorem abstracts_unary {function : UnaryOp} (h : input.shape.accepts dims) :
    (unary function).Abstracts [input] [dims] := by
  refine abstracts_of_same_shape h rfl (fun layout hlayout ↦ ?_) fun htype ↦ ⟨input, ?_⟩
  · obtain ⟨_, _, ⟨⟩⟩ := bind_eq_ok_iff.1 hlayout
    rfl
  · exact bind_eq_ok_iff.2 ⟨(), htype, rfl⟩

theorem abstracts_reorder {target : Format} (h : input.shape.accepts dims) :
    (reorder target).Abstracts [input] [dims] := by
  refine abstracts_of_same_shape h rfl (fun layout hlayout ↦ ?_) fun hformat ↦ ⟨_, if_neg hformat⟩
  simp only [outputLayout] at hlayout
  split at hlayout <;> cases hlayout
  rfl

theorem outputLayout_binary_eq_ok_iff {function : BinaryOp} :
    (binary function).outputLayout [lhs, rhs] = .ok layout ↔
      lhs.dtype = rhs.dtype ∧ lhs.shape.rank = rhs.shape.rank ∧ ∃ merged,
        (lhs.shape.dims.zip rhs.shape.dims).mapM (fun (left, right) ↦ left.merge right) =
          .ok merged ∧
        ⟨⟨merged⟩, lhs.dtype, if lhs.format = .any then rhs.format else lhs.format⟩ = layout := by
  rw [outputLayout]
  by_cases hdtype : lhs.dtype = rhs.dtype
  · by_cases hrank : lhs.shape.rank = rhs.shape.rank
    · simp [hdtype, hrank, bind_eq_ok_iff]
    · simp [hdtype, hrank]
  · simp [hdtype]

/-- Operands with the same extents have shapes that merge, and the merged shape accepts these. -/
theorem abstracts_binary {function : BinaryOp} (hleft : lhs.shape.accepts left)
    (hright : rhs.shape.accepts right) : (binary function).Abstracts [lhs, rhs] [left, right] where
  sound layout dims hlayout hdims := by
    obtain ⟨_, _, merged, hmerged, rfl⟩ := outputLayout_binary_eq_ok_iff.1 hlayout
    simp only [outputDims] at hdims
    split at hdims <;> cases hdims
    rename_i hsame
    subst hsame
    exact Shape.accepts_iff.2
      (forall₂_contains_merged hmerged (Shape.accepts_iff.1 hleft) (Shape.accepts_iff.1 hright))
  refused error hlayout htype := by
    refine ⟨_, if_neg ?_⟩
    rintro rfl
    have hrank : lhs.shape.rank = rhs.shape.rank :=
      (Shape.length_of_accepts hleft).symm.trans (Shape.length_of_accepts hright)
    obtain ⟨merged, hmerged⟩ :=
      exists_merged (Shape.accepts_iff.1 hleft) (Shape.accepts_iff.1 hright)
    exact error_ne_ok
      (hlayout.symm.trans (outputLayout_binary_eq_ok_iff.2 ⟨htype, hrank, merged, hmerged, rfl⟩))
  exact hstatic _ layout hlayout := by
    obtain ⟨_, hrank, merged, hmerged, rfl⟩ := outputLayout_binary_eq_ok_iff.1 hlayout
    have hl := Shape.eq_ofDims_of_accepts (hstatic lhs (by simp)) hleft
    have hr := Shape.eq_ofDims_of_accepts (hstatic rhs (by simp)) hright
    rw [← Shape.length_of_accepts hleft, ← Shape.length_of_accepts hright] at hrank
    rw [hl, hr] at hmerged
    obtain ⟨rfl, rfl⟩ := merged_fixed hrank hmerged
    exact ⟨left, if_pos rfl, Shape.staticDims?_eq_some_iff.2 rfl⟩

/-! ### Matrix products -/

/-- A matrix product has a layout when both operands are matrices whose contracted axes merge. -/
theorem outputLayout_matMul_eq_ok_iff {spec : MatMulSpec} :
    (matMul spec).outputLayout [lhs, rhs] = .ok layout ↔
      (lhs.dtype = rhs.dtype ∧ lhs.dtype ≠ .u8) ∧
      ∃ lhsRows lhsColumns rhsRows rhsColumns m k k' n dim,
        lhs.shape.dims = [lhsRows, lhsColumns] ∧ rhs.shape.dims = [rhsRows, rhsColumns] ∧
        MatMulSpec.oriented spec.transposeLhs lhsRows lhsColumns = (m, k) ∧
        MatMulSpec.oriented spec.transposeRhs rhsRows rhsColumns = (k', n) ∧
        k.merge k' = .ok dim ∧ ⟨⟨[m, n]⟩, lhs.dtype, lhs.format⟩ = layout := by
  rw [outputLayout]
  by_cases hdtype : lhs.dtype = rhs.dtype
  · by_cases hbytes : lhs.dtype = .u8
    · simp only [hdtype, hdtype ▸ hbytes]
      simp
    · simp only [hdtype, hdtype ▸ hbytes, ne_eq, not_true_eq_false, if_false, not_false_eq_true,
        and_self, true_and]
      split
      · rename_i lhsRows lhsColumns rhsRows rhsColumns hl hr
        rw [hl, hr]
        simp [bind_eq_ok_iff, mapError_eq_ok_iff, Prod.ext_iff]
      · rename_i hmatrix
        refine iff_of_false error_ne_ok ?_
        rintro ⟨_, _, _, _, _, _, _, _, _, hl, hr, _⟩
        exact hmatrix _ _ _ _ hl hr
  · simp [hdtype]

theorem extents_eq_ok_iff {spec : MatMulSpec} {m k n : Extent} :
    spec.extents left right = .ok (m, k, n) ↔ ∃ lhsRows lhsColumns rhsRows rhsColumns,
      left = [lhsRows, lhsColumns] ∧ right = [rhsRows, rhsColumns] ∧
      MatMulSpec.oriented spec.transposeLhs lhsRows lhsColumns = (m, k) ∧
      MatMulSpec.oriented spec.transposeRhs rhsRows rhsColumns = (k, n) := by
  constructor
  · intro h
    unfold MatMulSpec.extents at h
    split at h
    · simp only at h
      split at h <;> cases h
      rename_i hsame
      exact ⟨_, _, _, _, rfl, rfl, rfl, Prod.ext hsame.symm rfl⟩
    · cases h
  · rintro ⟨_, _, _, _, rfl, rfl, hmk, hkn⟩
    simp only [MatMulSpec.extents, hmk, hkn, if_true]

/-- A matrix admits its extents in either orientation. -/
theorem contains_oriented {rows columns m k : Dim} {height width m' k' : Extent} {transposed : Bool}
    (h : List.Forall₂ (fun dim extent ↦ dim.contains extent) [rows, columns] [height, width])
    (hdims : MatMulSpec.oriented transposed rows columns = (m, k))
    (hextents : MatMulSpec.oriented transposed height width = (m', k')) :
    m.contains m' ∧ k.contains k' := by
  simp only [List.forall₂_cons, List.Forall₂.nil, and_true] at h
  cases transposed <;> cases hdims <;> cases hextents
  · exact h
  · exact h.symm

theorem outputDims_matMul_eq_ok_iff {spec : MatMulSpec} :
    (matMul spec).outputDims [left, right] = .ok dims ↔
      ∃ m k n, spec.extents left right = .ok (m, k, n) ∧ dims = [m, n] := by
  simp [outputDims, bind_eq_ok_iff, eq_comm (b := dims)]

private theorem oriented_fixed {transposed : Bool} {height width : Extent} :
    MatMulSpec.oriented transposed (Dim.fixed height) (.fixed width) =
      (.fixed (MatMulSpec.oriented transposed height width).1,
        .fixed (MatMulSpec.oriented transposed height width).2) := by
  cases transposed <;> rfl

private theorem map_fixed_eq_pair {rows columns : Dim} (h : dims.map Dim.fixed = [rows, columns]) :
    ∃ height width, dims = [height, width] ∧ rows = .fixed height ∧ columns = .fixed width := by
  obtain ⟨height, width, rfl⟩ :=
    List.length_eq_two.1 ((List.length_map _).symm.trans (congrArg _ h))
  cases h
  exact ⟨height, width, rfl, rfl, rfl⟩

/-- The contracted extent is admitted by both contracted axes, so these merge. -/
theorem abstracts_matMul {spec : MatMulSpec} (hleft : lhs.shape.accepts left)
    (hright : rhs.shape.accepts right) : (matMul spec).Abstracts [lhs, rhs] [left, right] where
  sound layout dims hlayout hdims := by
    rw [Shape.accepts_iff] at hleft hright ⊢
    obtain ⟨_, _, _, _, _, m, _, _, n, _, hl, hr, hmk, hkn, _, rfl⟩ :=
      outputLayout_matMul_eq_ok_iff.1 hlayout
    obtain ⟨_, _, _, hextents, rfl⟩ := outputDims_matMul_eq_ok_iff.1 hdims
    obtain ⟨_, _, _, _, rfl, rfl, hmk', hkn'⟩ := extents_eq_ok_iff.1 hextents
    have hm := (contains_oriented (hl ▸ hleft) hmk hmk').1
    have hn := (contains_oriented (hr ▸ hright) hkn hkn').2
    exact .cons hm (.cons hn .nil)
  refused error hlayout htypes := by
    rw [Shape.accepts_iff] at hleft hright
    refine exists_error_of fun dims hdims ↦ ?_
    obtain ⟨_, _, _, hextents, rfl⟩ := outputDims_matMul_eq_ok_iff.1 hdims
    obtain ⟨_, _, _, _, rfl, rfl, hmk', hkn'⟩ := extents_eq_ok_iff.1 hextents
    obtain ⟨_, _, hl⟩ := List.length_eq_two.1 hleft.length_eq
    obtain ⟨_, _, hr⟩ := List.length_eq_two.1 hright.length_eq
    obtain ⟨dim, hmerge⟩ := Dim.exists_merge (contains_oriented (hl ▸ hleft) rfl hmk').2
      (contains_oriented (hr ▸ hright) rfl hkn').1
    exact error_ne_ok (hlayout.symm.trans (outputLayout_matMul_eq_ok_iff.2
      ⟨htypes, _, _, _, _, _, _, _, _, dim, hl, hr, rfl, rfl, hmerge, rfl⟩))
  exact hstatic _ layout hlayout := by
    obtain ⟨_, _, _, _, _, m, _, _, n, _, hl, hr, hmk, hkn, hmerge, rfl⟩ :=
      outputLayout_matMul_eq_ok_iff.1 hlayout
    rw [Shape.eq_ofDims_of_accepts (hstatic lhs (by simp)) hleft] at hl
    rw [Shape.eq_ofDims_of_accepts (hstatic rhs (by simp)) hright] at hr
    obtain ⟨a, b, rfl, rfl, rfl⟩ := map_fixed_eq_pair hl
    obtain ⟨c, d, rfl, rfl, rfl⟩ := map_fixed_eq_pair hr
    rw [oriented_fixed] at hmk hkn
    cases hmk
    cases hkn
    obtain ⟨hsame, _⟩ := Dim.merge_fixed hmerge
    refine ⟨_, outputDims_matMul_eq_ok_iff.2 ⟨_, _, _, extents_eq_ok_iff.2
      ⟨a, b, c, d, rfl, rfl, rfl, Prod.ext hsame.symm rfl⟩, rfl⟩,
      Shape.staticDims?_eq_some_iff.2 rfl⟩

/-! ### Reductions -/

private theorem forall₂_reduceLast {α β : Type} {R : α → β → Prop} {spec : ReduceSpec} {as : List α}
    {bs : List β} {a : α} {b : β} (h : List.Forall₂ R as bs) (hunit : R a b) :
    List.Forall₂ R (spec.reduceLast a as) (spec.reduceLast b bs) := by
  have hfront : List.Forall₂ R as.dropLast bs.dropLast := by
    rw [List.dropLast_eq_take, List.dropLast_eq_take, h.length_eq]
    exact List.forall₂_take _ h
  unfold ReduceSpec.reduceLast
  split
  · exact List.rel_append hfront (.cons hunit .nil)
  · exact hfront

theorem abstracts_reduce {spec : ReduceSpec} (h : input.shape.accepts dims) :
    (reduce spec).Abstracts [input] [dims] where
  sound layout dims' hlayout hdims := by
    simp only [outputLayout] at hlayout
    simp only [outputDims] at hdims
    split at hlayout <;> cases hlayout
    split at hdims <;> cases hdims
    exact Shape.accepts_iff.2
      (forall₂_reduceLast (Shape.accepts_iff.1 h) (Dim.contains_fixed.2 rfl))
  refused error hlayout _ := by
    simp only [outputLayout] at hlayout
    split at hlayout <;> cases hlayout
    rename_i hrank
    rw [← Shape.length_of_accepts h, List.length_eq_zero_iff] at hrank
    exact ⟨_, if_pos hrank⟩
  exact hstatic _ layout hlayout := by
    simp only [outputLayout] at hlayout
    split at hlayout <;> cases hlayout
    rename_i hrank
    rw [← Shape.length_of_accepts h, List.length_eq_zero_iff] at hrank
    refine ⟨_, if_neg hrank, Shape.staticDims?_eq_some_iff.2 ?_⟩
    rw [Shape.eq_ofDims_of_accepts (hstatic input (by simp)) h]
    simp only [Shape.ofDims, ReduceSpec.reduceLast, ← List.map_dropLast]
    split <;> simp

/-! ### Reshapes -/

/-- A result behind a check. -/
private theorem checked_eq_ok_iff {α : Type} {p : Prop} [Decidable p] {e : InferenceError}
    {a b : α} : (if p then Except.error e else .ok a) = .ok b ↔ ¬p ∧ a = b := by
  by_cases h : p <;> simp [h]

/-- The declared extent of one axis of the target of a reshape; the number of elements may be
unknown. -/
abbrev declaredAxis (total : Option Nat) (explicit : Nat) : ReshapeDim → Except InferenceError Dim
  | .explicit extent => .ok (.fixed extent)
  | .infer =>
    match total with
    | some total => .fixed <$> ReshapeDim.inferExtent total explicit
    | none => .ok .unbounded

theorem outputLayout_reshape_eq_ok_iff {target : List ReshapeDim} :
    (reshape target).outputLayout [input] = .ok layout ↔
      ∃ explicit, ReshapeDim.explicitCount target = .ok explicit ∧ ∃ axes,
      target.mapM (declaredAxis (input.shape.staticDims?.bind elementCount?) explicit) = .ok axes ∧
      (∀ total ∈ input.shape.staticDims?.bind elementCount?, .infer ∈ target ∨ total = explicit) ∧
      { input with shape := ⟨axes⟩ } = layout := by
  simp only [outputLayout]
  generalize input.shape.staticDims?.bind elementCount? = total
  refine bind_eq_ok_iff.trans (exists_congr fun explicit ↦ and_congr_right' (bind_eq_ok_iff.trans
    (exists_congr fun axes ↦ and_congr Iff.rfl ?_)))
  cases total with
  | none => simp
  | some total => simp [checked_eq_ok_iff, Decidable.or_iff_not_imp_left]

theorem outputDims_reshape_eq_ok_iff {target : List ReshapeDim} :
    (reshape target).outputDims [left] = .ok dims ↔ ∃ total, elementCount? left = some total ∧
      ∃ explicit, ReshapeDim.explicitCount target = .ok explicit ∧
      target.mapM (ReshapeDim.resolve total explicit) = .ok dims ∧
      (.infer ∈ target ∨ total = explicit) := by
  simp only [outputDims]
  cases elementCount? left with
  | none => simp
  | some total =>
    simp only [Option.some.injEq, exists_eq_left']
    refine bind_eq_ok_iff.trans (exists_congr fun explicit ↦ and_congr_right' ?_)
    calc
      _ ↔ ∃ dims', target.mapM (ReshapeDim.resolve total explicit) = .ok dims' ∧
          (.infer ∈ target ∨ total = explicit) ∧ dims' = dims :=
        bind_eq_ok_iff.trans (exists_congr fun dims' ↦ and_congr Iff.rfl
          (by simp [checked_eq_ok_iff, Decidable.or_iff_not_imp_left]))
      _ ↔ _ := by simp only [← and_assoc, exists_eq_right]

section Axes

variable {known? : Option Nat} {count explicit : Nat} {axis : ReshapeDim} {dim : Dim}
  {extent : Extent} {target : List ReshapeDim} {axes : List Dim}

/-- With the number of elements known, an axis is declared with the extent that it gets. -/
private theorem declaredAxis_some :
    declaredAxis (some count) explicit axis = Dim.fixed <$> axis.resolve count explicit := by
  cases axis <;> rfl

/-- An axis that gets an extent is declared, and its declaration admits this extent. -/
private theorem exists_declaredAxis (hknown : ∀ known ∈ known?, known = count)
    (hextent : axis.resolve count explicit = .ok extent) :
    ∃ dim, declaredAxis known? explicit axis = .ok dim ∧ dim.contains extent := by
  cases hcase : known? with
  | some known =>
    obtain rfl := hknown known hcase
    exact ⟨.fixed extent, declaredAxis_some.trans (map_eq_ok_iff.2 ⟨extent, hextent, rfl⟩),
      Dim.contains_fixed.2 rfl⟩
  | none =>
    cases axis with
    | explicit value =>
      cases hextent
      exact ⟨_, rfl, Dim.contains_fixed.2 rfl⟩
    | infer => exact ⟨_, rfl, rfl⟩

private theorem exists_declaredAxes (hknown : ∀ known ∈ known?, known = count)
    (h : target.mapM (ReshapeDim.resolve count explicit) = .ok dims) :
    ∃ axes, target.mapM (declaredAxis known? explicit) = .ok axes ∧
      List.Forall₂ (fun dim extent ↦ dim.contains extent) axes dims := by
  rw [mapM_eq_ok_iff] at h
  simp only [mapM_eq_ok_iff]
  induction h with
  | nil => exact ⟨[], .nil, .nil⟩
  | cons hextent _ ih =>
    obtain ⟨dim, hdim, hcontains⟩ := exists_declaredAxis hknown hextent
    obtain ⟨axes, haxes, hrest⟩ := ih
    exact ⟨dim :: axes, .cons hdim haxes, .cons hcontains hrest⟩

/-- With the number of elements known, declared axes are the extents. -/
private theorem exists_resolved
    (h : target.mapM (declaredAxis (some count) explicit) = .ok axes) :
    ∃ dims, target.mapM (ReshapeDim.resolve count explicit) = .ok dims ∧
      axes = dims.map Dim.fixed := by
  rw [mapM_eq_ok_iff] at h
  simp only [mapM_eq_ok_iff]
  induction h with
  | nil => exact ⟨[], .nil, rfl⟩
  | cons hdim _ ih =>
    rw [declaredAxis_some] at hdim
    obtain ⟨extent, hextent, rfl⟩ := map_eq_ok_iff.1 hdim
    obtain ⟨dims, hdims, rfl⟩ := ih
    exact ⟨extent :: dims, .cons hextent hdims, rfl⟩

end Axes

/-- The known number of elements of the operand is that of every invocation. -/
theorem elementCount?_of_known {count : Nat} (h : input.shape.accepts dims)
    (hcount : elementCount? dims = some count) :
    ∀ known ∈ input.shape.staticDims?.bind elementCount?, known = count := by
  intro known hknown
  obtain ⟨dims', hdims', hknown⟩ := Option.bind_eq_some_iff.1 hknown
  rw [Shape.staticDims?_eq_some_iff.1 hdims', Shape.accepts_ofDims_iff] at h
  exact Option.some.inj (hknown.symm.trans (h ▸ hcount))

theorem abstracts_reshape {target : List ReshapeDim} (h : input.shape.accepts dims) :
    (reshape target).Abstracts [input] [dims] where
  sound layout dims' hlayout hdims := by
    obtain ⟨explicit, hexplicit, axes, haxes, _, rfl⟩ := outputLayout_reshape_eq_ok_iff.1 hlayout
    obtain ⟨count, hcount, explicit', hexplicit', hdims, _⟩ := outputDims_reshape_eq_ok_iff.1 hdims
    obtain rfl := Except.ok.inj (hexplicit.symm.trans hexplicit')
    obtain ⟨axes', haxes', hcontains⟩ := exists_declaredAxes (elementCount?_of_known h hcount) hdims
    obtain rfl := Except.ok.inj (haxes'.symm.trans haxes)
    exact Shape.accepts_iff.2 hcontains
  refused error hlayout _ := by
    refine exists_error_of fun dims' hdims ↦ ?_
    obtain ⟨count, hcount, explicit, hexplicit, hdims, hsame⟩ :=
      outputDims_reshape_eq_ok_iff.1 hdims
    have hknown := elementCount?_of_known h hcount
    obtain ⟨axes, haxes, _⟩ := exists_declaredAxes hknown hdims
    exact error_ne_ok (hlayout.symm.trans (outputLayout_reshape_eq_ok_iff.2
      ⟨explicit, hexplicit, axes, haxes, fun known hmem ↦ hknown known hmem ▸ hsame, rfl⟩))
  exact hstatic hcounted layout hlayout := by
    obtain ⟨count, hcount⟩ := Option.isSome_iff_exists.1 (hcounted dims (List.mem_singleton_self _))
    have hshape := Shape.eq_ofDims_of_accepts (hstatic input (List.mem_singleton_self _)) h
    have hknown : input.shape.staticDims?.bind elementCount? = some count := by
      rw [Shape.staticDims?_eq_some_iff.2 hshape, Option.bind_some, hcount]
    obtain ⟨explicit, hexplicit, axes, haxes, hsame, rfl⟩ :=
      outputLayout_reshape_eq_ok_iff.1 hlayout
    rw [hknown] at haxes hsame
    obtain ⟨dims', hdims', rfl⟩ := exists_resolved haxes
    exact ⟨dims', outputDims_reshape_eq_ok_iff.2
      ⟨count, hcount, explicit, hexplicit, hdims', hsame count rfl⟩,
      Shape.staticDims?_eq_some_iff.2 rfl⟩

/-! ## Every operation -/

theorem abstracts {op : OpSpec} (h : Layout.AllAccept inputs extents) :
    op.Abstracts inputs extents := by
  by_cases harity : inputs.length = op.arity
  · cases op with
    | parameter | constant =>
      obtain rfl := List.length_eq_zero_iff.1 harity
      obtain rfl := List.forall₂_nil_left_iff.1 h
      first | exact abstracts_parameter | exact abstracts_constant
    | unary | reduce | reshape | reorder =>
      obtain ⟨input, rfl⟩ := List.length_eq_one_iff.1 harity
      obtain ⟨dims, _, hinput, hnil, rfl⟩ := List.forall₂_cons_left_iff.1 h
      obtain rfl := List.forall₂_nil_left_iff.1 hnil
      first
      | exact abstracts_unary hinput
      | exact abstracts_reduce hinput
      | exact abstracts_reshape hinput
      | exact abstracts_reorder hinput
    | binary | matMul =>
      obtain ⟨lhs, rhs, rfl⟩ := List.length_eq_two.1 harity
      obtain ⟨left, _, hleft, hrest, rfl⟩ := List.forall₂_cons_left_iff.1 h
      obtain ⟨right, _, hright, hnil, rfl⟩ := List.forall₂_cons_left_iff.1 hrest
      obtain rfl := List.forall₂_nil_left_iff.1 hnil
      first | exact abstracts_binary hleft hright | exact abstracts_matMul hleft hright
  · exact abstracts_of_length_ne harity h.length_eq

/-- Inference on layouts is a sound and exact abstraction of inference on extents, for every
operation and all extents that the declared layouts of the operands accept. -/
theorem outputLayout_abstracts_outputDims (op : OpSpec) (inputs : List Layout)
    (extents : List Dims) (h : Layout.AllAccept inputs extents) :
    (∀ layout dims, op.outputLayout inputs = .ok layout → op.outputDims extents = .ok dims →
      layout.shape.accepts dims) ∧
    (∀ error, op.outputLayout inputs = .error error → op.Admits inputs →
      ∃ error', op.outputDims extents = .error error') ∧
    ((∀ input ∈ inputs, input.isStatic) → (∀ dims ∈ extents, (elementCount? dims).isSome) →
      ∀ layout, op.outputLayout inputs = .ok layout →
        ∃ dims, op.outputDims extents = .ok dims ∧ layout.shape.staticDims? = some dims) :=
  have habstracts : op.Abstracts inputs extents := abstracts h
  ⟨habstracts.sound, habstracts.refused, habstracts.exact⟩

/-- A matrix of floating-point numbers. -/
def matrixLayout (rows columns : Dim) : Layout := ⟨⟨[rows, columns]⟩, .f32, .rowMajor⟩

/-- Up to four rows of any length times a matrix whose first operand is stored transposed; the same
with rows that are too long; and a matrix with known extents whose rows are halved. -/
theorem outputLayout_abstracts_outputDims_matrices :
    (matrixLayout (.range 1 4) (.fixed 5)).shape.accepts [2, 5] ∧
    (∃ error, (matMul ⟨false, true⟩).outputDims [[2, 9], [5, 3]] = .error error) ∧
    ∃ dims, (reshape [.infer, .explicit 2]).outputDims [[3, 4]] = .ok dims ∧
      (matrixLayout (.fixed 6) (.fixed 2)).shape.staticDims? = some dims :=
  ⟨(outputLayout_abstracts_outputDims (matMul ⟨false, true⟩)
      [matrixLayout (.range 1 4) .unbounded, matrixLayout (.fixed 5) (.range 2 3)]
      [[2, 3], [5, 3]] (by decide)).1 _ _ rfl rfl,
    (outputLayout_abstracts_outputDims (matMul ⟨false, true⟩)
      [matrixLayout (.range 1 4) (.range 8 9), matrixLayout (.fixed 5) (.range 2 3)]
      [[2, 9], [5, 3]] (by decide)).2.1 _ rfl ⟨rfl, by decide⟩,
    (outputLayout_abstracts_outputDims (reshape [.infer, .explicit 2])
      [matrixLayout (.fixed 3) (.fixed 4)] [[3, 4]] (by decide)).2.2 (by decide) (by decide) _ rfl⟩

end OpSpec

end TensorEngine
