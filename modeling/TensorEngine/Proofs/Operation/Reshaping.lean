import TensorEngine.Proofs.Operation.Abstraction

/-!
# Reshapes keep the number of elements

A reshape and its operand share their elements, so the extents of a reshape have to ask for as many
as those of its operand.  They do, also where a target has zeros or large extents around the one to
infer, and every such target is accepted; but nothing is inferred beside a zero, where any extent
would do or none.
-/

namespace TensorEngine

variable {target : List ReshapeDim} {input dims : Dims} {total explicit count : Nat}
  {extent : Extent} {error : InferenceError}

/-- What is counted has no leading part beyond the words. -/
theorem volume_take_lt (h : elementCount? dims = some count) (k : Nat) :
    volume (dims.take k) < Size.wordCount := by
  rw [← List.take_append_drop k dims, elementCount?_eq, countFrom_append,
    Option.bind_eq_some_iff] at h
  obtain ⟨front, hfront, _⟩ := h
  exact eq_volume_of_elementCount? hfront ▸ lt_wordCount_of_elementCount? hfront

namespace ReshapeDim

/-- The extent of an axis of a target, with one in the place of the extent to infer. -/
def fill (extent : Extent) : ReshapeDim → Extent
  | .explicit value => value
  | .infer => extent

/-- A filled target multiplies up its given extents, and the other one wherever it is asked for. -/
theorem volume_map_fill : volume (target.map (fill extent)) =
    volume (target.filterMap explicit?) * extent.toNat ^ target.countP (· = .infer) := by
  induction target with
  | nil => rfl
  | cons axis target ih =>
    cases axis with
    | explicit value =>
      have hgiven : (explicit value :: target).filterMap explicit? =
          value :: target.filterMap explicit? := rfl
      rw [List.map_cons, volume_cons, ih, hgiven, volume_cons,
        List.countP_cons_of_neg (by simp), fill, Nat.mul_assoc]
    | infer =>
      rw [List.map_cons, volume_cons, ih, List.filterMap_cons_none rfl,
        List.countP_cons_of_pos (by simp), fill, Nat.pow_succ, Nat.mul_left_comm,
        Nat.mul_comm extent.toNat]

/-- A target in which an extent is to infer has one place for it. -/
theorem volume_map_fill_of_mem (h : explicitCount target = .ok explicit)
    (hinfer : .infer ∈ target) :
    volume (target.map (fill extent)) = explicit * extent.toNat := by
  obtain ⟨hcount, hsingle⟩ := explicitCount_eq_ok_iff.1 h
  have hpos : 0 < target.countP (· = .infer) := List.countP_pos_iff.2 ⟨_, hinfer, by simp⟩
  rw [volume_map_fill, Nat.le_antisymm hsingle hpos, Nat.pow_one,
    eq_volume_of_elementCount? hcount]

theorem volume_map_fill_of_notMem (h : explicitCount target = .ok explicit)
    (hinfer : .infer ∉ target) : volume (target.map (fill extent)) = explicit := by
  obtain ⟨hcount, _⟩ := explicitCount_eq_ok_iff.1 h
  have hnone : target.countP (· = .infer) = 0 :=
    List.countP_eq_zero.2 fun axis hmem heq ↦ hinfer (of_decide_eq_true heq ▸ hmem)
  rw [volume_map_fill, hnone, Nat.pow_zero, Nat.mul_one, eq_volume_of_elementCount? hcount]

/-- The extent that makes up the number of elements is inferred. -/
theorem inferExtent_of_mul_eq (hzero : explicit ≠ 0) (h : explicit * extent.toNat = total) :
    inferExtent total explicit = .ok extent := by
  have hdivides : ¬ (explicit = 0 ∨ total % explicit ≠ 0) := by
    rw [← h, Nat.mul_mod_right]
    simp [hzero]
  rw [inferExtent, if_neg hdivides, ← h, Nat.mul_div_cancel_left _ (Nat.pos_of_ne_zero hzero),
    UInt64.ofNat_toNat]

/-- The axes of a target are resolved to the filled target. -/
theorem mapM_resolve (h : .infer ∈ target → inferExtent total explicit = .ok extent) :
    target.mapM (resolve total explicit) = .ok (target.map (fill extent)) := by
  rw [mapM_eq_ok_iff, List.forall₂_map_right_iff, List.forall₂_same]
  intro axis hmem
  cases axis with
  | explicit value => rfl
  | infer => exact h hmem

/-- An extent that cannot be inferred is the only thing that can fail. -/
theorem mapM_resolve_eq_error (hinfer : .infer ∈ target)
    (h : inferExtent total explicit = .error error) :
    target.mapM (resolve total explicit) = .error error := by
  induction target with
  | nil => cases hinfer
  | cons axis target ih =>
    rw [List.mapM_cons]
    cases axis with
    | explicit value =>
      have hrest : .infer ∈ target := (List.mem_cons.1 hinfer).resolve_left nofun
      rw [ih hrest]
      rfl
    | infer =>
      rw [resolve, h]
      rfl

end ReshapeDim

open ReshapeDim

/-- A target that some extent makes as large as the operand is accepted, unless an extent is to be
inferred beside a zero. -/
theorem outputDims_reshape_of_volume_eq (htotal : elementCount? input = some total)
    (hexplicit : explicitCount target = .ok explicit)
    (h : volume (target.map (fill extent)) = total) (hzero : .infer ∈ target → explicit ≠ 0) :
    (OpSpec.reshape target).outputDims [input] = .ok (target.map (fill extent)) := by
  rw [OpSpec.outputDims_reshape_eq_ok_iff]
  refine ⟨total, htotal, explicit, hexplicit, mapM_resolve fun hinfer ↦ ?_, ?_⟩
  · exact inferExtent_of_mul_eq (hzero hinfer)
      ((volume_map_fill_of_mem hexplicit hinfer).symm.trans h)
  · by_cases hinfer : .infer ∈ target
    · exact .inl hinfer
    · exact .inr (h.symm.trans (volume_map_fill_of_notMem hexplicit hinfer))

/-- Beside a zero nothing is inferred, whatever the operand is. -/
theorem outputDims_reshape_beside_zero (hexplicit : explicitCount target = .ok 0)
    (hinfer : .infer ∈ target) : (OpSpec.reshape target).outputDims [input] =
      .error ((elementCount? input).elim (.inputOverflow input) (.cannotInfer · 0)) := by
  rw [OpSpec.outputDims]
  cases elementCount? input with
  | none => rfl
  | some total =>
    have hmap : target.mapM (resolve total 0) = .error (.cannotInfer total 0) :=
      mapM_resolve_eq_error hinfer (if_pos (.inl rfl))
    simp only [hexplicit, ok_bind]
    exact congrArg (· >>= _) hmap

/-- A reshape has as many elements as its operand, and no leading part of its extents is beyond the
words.  It is accepted whenever some extent in the place of the one to infer, if there is one, makes
the target as large as the operand, but for the targets in which an extent is to be inferred beside
a zero: those are always refused. -/
theorem reshape_keeps_elementCount (target : List ReshapeDim) (input : Dims) :
    (∀ out, (OpSpec.reshape target).outputDims [input] = .ok out →
      (∃ total, elementCount? out = some total ∧ elementCount? input = some total) ∧
      ∀ k, volume (out.take k) < Size.wordCount) ∧
    (∀ total explicit extent, elementCount? input = some total →
      explicitCount target = .ok explicit → volume (target.map (fill extent)) = total →
      (.infer ∈ target → explicit ≠ 0) →
      (OpSpec.reshape target).outputDims [input] = .ok (target.map (fill extent))) ∧
    (explicitCount target = .ok 0 → .infer ∈ target →
      (OpSpec.reshape target).outputDims [input] =
        .error ((elementCount? input).elim (.inputOverflow input) (.cannotInfer · 0))) := by
  refine ⟨fun out h ↦ ?_, fun _ _ _ ↦ outputDims_reshape_of_volume_eq,
    outputDims_reshape_beside_zero⟩
  obtain ⟨total, htotal, hout⟩ := elementCount?_reshape h
  exact ⟨⟨total, hout, htotal⟩, volume_take_lt hout⟩

/-- An extent between two large ones, and extents beside a zero. -/
theorem reshape_keeps_elementCount_largeRows :
    (OpSpec.reshape [.explicit 0x80000000, .infer, .explicit 2]).outputDims [[0x100000000, 3]] =
      .ok [0x80000000, 3, 2] ∧
    (∃ total, elementCount? [0x80000000, 3, 2] = some total ∧
      elementCount? [0x100000000, 3] = some total) ∧
    (OpSpec.reshape [.explicit 0, .infer]).outputDims [[0, 7]] = .error (.cannotInfer 0 0) := by
  have haccepted := (reshape_keeps_elementCount [.explicit 0x80000000, .infer, .explicit 2]
    [0x100000000, 3]).2.1 0x300000000 0x100000000 3 rfl rfl rfl (by decide)
  exact ⟨haccepted, ((reshape_keeps_elementCount _ _).1 _ haccepted).1,
    (reshape_keeps_elementCount [.explicit 0, .infer] [0, 7]).2.2 rfl (by decide)⟩

end TensorEngine
