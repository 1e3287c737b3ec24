import TensorEngine.Proofs.Instance.Agreement
import TensorEngine.Proofs.Kernel.Refusals

/-!
# Parallel implementations in the place of reference implementations

By a plan that suits its arguments, a parallel implementation ends well exactly when the reference
implementation does, and leaves the same elements, whatever the operands are.  Plans that were made
for some extents suit all arguments with these extents.  The products of a plan matter to
reductions only; the plan of an elementwise operation may have products that no word can hold.

The chunks of a result are disjoint, so it does not matter in which order they are visited.
-/

namespace TensorEngine

open Kernel

/-! ## Chunks in any order -/

namespace Kernel

variable {α β : Type} {update : α → β → α} {order : List Nat} {olds : List α} {sources : List β}

/-- Replaces the items at some places one after the other, each by way of its partner. -/
def updateIn (update : α → β → α) (order : List Nat) (olds : List α) (sources : List β) :
    List α :=
  order.foldl (fun items j ↦ items.modify j fun old ↦ (sources[j]?).elim old (update old)) olds

theorem getElem?_updateWith (j : Nat) : (updateWith update olds sources)[j]? =
    olds[j]?.map fun old ↦ (sources[j]?).elim old (update old) := by
  induction olds generalizing sources j with
  | nil => cases sources <;> simp [updateWith]
  | cons old olds ih =>
    cases sources with
    | nil => simp [updateWith]
    | cons source sources => cases j <;> simp [updateWith, ih]

/-- Visiting an item replaces this item alone. -/
theorem getElem?_updateIn (hnodup : order.Nodup) (j : Nat) :
    (updateIn update order olds sources)[j]? =
      if j ∈ order then olds[j]?.map fun old ↦ (sources[j]?).elim old (update old)
      else olds[j]? := by
  induction order generalizing olds with
  | nil => simp [updateIn]
  | cons first order ih =>
    obtain ⟨hfirst, hnodup⟩ := List.nodup_cons.1 hnodup
    rw [updateIn, List.foldl_cons]
    refine (ih hnodup).trans ?_
    rw [List.getElem?_modify]
    by_cases hj : first = j
    · subst hj
      simp [hfirst]
    · simp [hj, Ne.symm hj]

/-- Pairs that are visited once each leave what they leave side by side, in any order. -/
theorem updateIn_eq_updateWith
    (h : order.Perm (List.range (min olds.length sources.length))) :
    updateIn update order olds sources = updateWith update olds sources := by
  refine List.ext_getElem? fun j ↦ ?_
  rw [getElem?_updateIn (h.nodup_iff.2 List.nodup_range), getElem?_updateWith]
  by_cases hj : j ∈ order
  · rw [if_pos hj]
  · rw [if_neg hj]
    rw [h.mem_iff, List.mem_range, Nat.lt_min, not_and_or, Nat.not_lt, Nat.not_lt] at hj
    rcases hj with hj | hj
    · rw [List.getElem?_eq_none hj, Option.map_none]
    · simp [List.getElem?_eq_none hj]

end Kernel

/-! ## Plans that suit -/

def ParallelKernel.sequential : ParallelKernel → RefKernel
  | .binary op => .binary op
  | .unary op => .unary op
  | .reduce spec => .reduce spec

/-- A plan has the numbers of operands with some extents and of a result with so many elements; its
chunks have elements, and the products that a reduction forms fit a word. -/
structure KernelPlan.Suits (plan : KernelPlan) (inputs : List Dims) (elements : Nat) : Prop where
  elements_eq : plan.elements.toNat = elements
  inner_eq : plan.inner = (inputs.head?.bind List.getLast?).getD 1
  chunk_pos : 1 ≤ plan.chunk.toNat
  products_lt : ∀ spec, plan.kernel = .reduce spec →
    plan.chunk.toNat * plan.inner.toNat < Size.wordCount ∧
      elements * plan.inner.toNat < Size.wordCount

/-! ## Kernels -/

namespace Kernel

/-- A run on chunks and one on single elements both end well or both fail, and leave the same
elements. -/
structure Outcome.Matches (chunked : Outcome (Array F32)) (single : Outcome TensorData) :
    Prop where
  ended_iff : chunked.ended = .ok () ↔ single.ended = .ok ()
  out_eq : single.out = .f32 chunked.out

variable {α : Type} {inner : Nat} {a b o : Array α}

theorem matches_ok {values : Array F32} :
    Outcome.Matches ⟨.ok (), values⟩ ⟨.ok (), .f32 values⟩ :=
  ⟨Iff.rfl, rfl⟩

theorem matches_error {fault fault' : Fault} {out : Array F32} :
    Outcome.Matches ⟨.error fault, out⟩ ⟨.error fault', .f32 out⟩ :=
  ⟨⟨nofun, nofun⟩, rfl⟩

/-- A loop whose check fails does not start. -/
theorem exists_error_fillAfter {check : Except Fault Unit} {compute : Nat → Except Fault α}
    (h : check ≠ .ok ()) : ∃ fault, fillAfter check compute o = ⟨.error fault, o⟩ := by
  cases check with
  | error fault => exact ⟨fault, rfl⟩
  | ok => exact absurd rfl h

theorem exists_error_zipWith (apply : α → α → Except BackendError α)
    (h : ¬(a.size = o.size ∧ b.size = o.size)) :
    ∃ fault, zipWith apply a b o = ⟨.error fault, o⟩ := by
  refine exists_error_fillAfter fun hcheck ↦ ?_
  obtain ⟨_, ha, hb⟩ := bind_eq_ok_iff.1 hcheck
  exact h ⟨(eq_of_checkLength ha).symm, (eq_of_checkLength hb).symm⟩

theorem exists_error_map (apply : α → Except BackendError α) (h : a.size ≠ o.size) :
    ∃ fault, map apply a o = ⟨.error fault, o⟩ :=
  exists_error_fillAfter fun hcheck ↦ h (eq_of_checkLength hcheck).symm

theorem exists_error_reduceRows (row : Array α → α) (h : a.size ≠ o.size * inner) :
    ∃ fault, reduceRows row inner a o = ⟨.error fault, o⟩ := by
  refine exists_error_fillAfter fun hcheck ↦ ?_
  obtain ⟨_, hlength, hcheck⟩ := bind_eq_ok_iff.1 hcheck
  exact h ((times_eq_ok_iff.1 hlength).1.trans (eq_of_checkLength hcheck)).symm

theorem exists_error_reduceChunked (row : Array F32 → F32) (chunk : Nat) {a o : Array F32}
    (h : a.size ≠ o.size * inner) :
    ∃ fault, reduceChunked row chunk inner a o = ⟨.error fault, o⟩ := by
  unfold reduceChunked
  cases hrows : rowsOfChunk chunk inner o.size a.size with
  | error fault => exact ⟨fault, rfl⟩
  | ok items => exact absurd (rowsOfChunk_eq_ok_iff.1 hrows).1.1 h

end Kernel

namespace CatalogueImplementation

variable {elements inner chunk : Extent} {dims lhsDims rhsDims outDims : Dims} {a b o : Array F32}
  {plan : KernelPlan} {inputs outputs : List TensorView}

section

variable (hsize : elements.toNat = o.size) (hchunk : chunk.toNat ≠ 0)

include hsize hchunk

theorem matches_binary {op : BinaryOp} :
    (ParallelImplementation.runPlan ⟨.binary op, elements, inner, chunk⟩
      [⟨lhsDims, .f32 a⟩, ⟨rhsDims, .f32 b⟩] o).Matches
      (ReferenceImplementation.run (.binary op) [⟨lhsDims, .f32 a⟩, ⟨rhsDims, .f32 b⟩]
        ⟨outDims, .f32 o⟩) := by
  by_cases hsame : a.size = o.size ∧ b.size = o.size
  · rw [runPlan_binary hsize hchunk hsame.1 hsame.2]
    exact (run_binary hsame.1 hsame.2).symm ▸ matches_ok
  · obtain ⟨fault, hsingle⟩ := exists_error_zipWith (fun x y ↦ .ok (op.applyF32 x y)) hsame
    rw [runPlan_eq_zipWithChunked hsize, zipWithChunked, if_pos (not_and_or.1 hsame)]
    show Outcome.Matches _ ((zipWith (fun x y ↦ .ok (op.applyF32 x y)) a b o).map TensorData.f32)
    rw [hsingle]
    exact matches_error

theorem matches_unary {op : UnaryOp} :
    (ParallelImplementation.runPlan ⟨.unary op, elements, inner, chunk⟩ [⟨dims, .f32 a⟩] o).Matches
      (ReferenceImplementation.run (.unary op) [⟨dims, .f32 a⟩] ⟨outDims, .f32 o⟩) := by
  by_cases hsame : a.size = o.size
  · rw [runPlan_unary hsize hchunk hsame]
    exact (run_unary hsame).symm ▸ matches_ok
  · obtain ⟨fault, hsingle⟩ := exists_error_map (fun x ↦ .ok (op.applyF32 x)) hsame
    rw [runPlan_eq_mapChunked hsize, mapChunked, if_pos hsame]
    show Outcome.Matches _ ((Kernel.map (fun x ↦ .ok (op.applyF32 x)) a o).map TensorData.f32)
    rw [hsingle]
    exact matches_error

theorem matches_reduce {spec : ReduceSpec} (hinner : inner.toNat = innerExtent dims)
    (hrows : chunk.toNat * inner.toNat < Size.wordCount)
    (hword : o.size * inner.toNat < Size.wordCount) :
    (ParallelImplementation.runPlan ⟨.reduce spec, elements, inner, chunk⟩ [⟨dims, .f32 a⟩]
      o).Matches
      (ReferenceImplementation.run (.reduce spec) [⟨dims, .f32 a⟩] ⟨outDims, .f32 o⟩) := by
  rw [hinner] at hrows hword
  by_cases hsame : a.size = o.size * innerExtent dims
  · rw [runPlan_reduce hsize (fun _ ↦ hchunk) hinner hsame hword hrows]
    exact (run_reduce hsame hword).symm ▸ matches_ok
  · obtain ⟨fault, hsingle⟩ := exists_error_reduceRows spec.kind.rowF32 hsame
    obtain ⟨fault', hchunked⟩ :=
      exists_error_reduceChunked spec.kind.rowF32 chunk.toNat hsame
    rw [runPlan_eq_reduceChunked hsize, hinner, hchunked]
    show Outcome.Matches _ ((reduceRows spec.kind.rowF32 (innerExtent dims) a o).map TensorData.f32)
    rw [hsingle]
    exact matches_error

end

theorem exists_floats {view : TensorView} (h : view.data.dtype = .f32) :
    ∃ values, view = ⟨view.dims, .f32 values⟩ := by
  obtain ⟨dims, _ | _ | _⟩ := view
  · exact ⟨_, rfl⟩
  · cases h
  · cases h

/-- By a plan that suits, a run on chunks matches the sequential one; with another number of
operands both refuse. -/
theorem runPlan_matches (outDims : Dims) (hfloats : ∀ view ∈ inputs, view.data.dtype = .f32)
    (hsuits : plan.Suits (inputs.map TensorView.dims) o.size) :
    (ParallelImplementation.runPlan plan inputs o).Matches
      (ReferenceImplementation.run plan.kernel.sequential inputs ⟨outDims, .f32 o⟩) := by
  obtain ⟨kernel, elements, inner, chunk⟩ := plan
  have hsize : elements.toNat = o.size := hsuits.elements_eq
  have hchunk : chunk.toNat ≠ 0 := Nat.pos_iff_ne_zero.1 hsuits.chunk_pos
  cases kernel with
  | binary op =>
    match inputs, hfloats with
    | [lhs, rhs], hfloats =>
      obtain ⟨a, ha⟩ := exists_floats (hfloats lhs (by simp))
      obtain ⟨b, hb⟩ := exists_floats (hfloats rhs (by simp))
      rw [ha, hb]
      exact matches_binary hsize hchunk
    | [], _ | [_], _ | _ :: _ :: _ :: _, _ =>
      unfold ParallelImplementation.runPlan
      rw [if_neg (by simpa using hsize.symm)]
      exact matches_error
  | unary op =>
    match inputs, hfloats with
    | [input], hfloats =>
      obtain ⟨a, ha⟩ := exists_floats (hfloats input (by simp))
      rw [ha]
      exact matches_unary hsize hchunk
    | [], _ | _ :: _ :: _, _ =>
      unfold ParallelImplementation.runPlan
      rw [if_neg (by simpa using hsize.symm)]
      exact matches_error
  | reduce spec =>
    match inputs, hfloats, hsuits with
    | [input], hfloats, hsuits =>
      obtain ⟨a, ha⟩ := exists_floats (hfloats input (by simp))
      obtain ⟨hrows, hword⟩ := hsuits.products_lt spec rfl
      have hinner : inner.toNat = innerExtent input.dims := congrArg UInt64.toNat hsuits.inner_eq
      rw [ha]
      exact matches_reduce hsize hchunk hinner hrows hword
    | [], _, _ | _ :: _ :: _, _, _ =>
      unfold ParallelImplementation.runPlan
      rw [if_neg (by simpa using hsize.symm)]
      exact matches_error

end CatalogueImplementation

/-! ## Implementations -/

theorem ReferenceImplementation.execute_of_shapes {reference : ReferenceImplementation}
    (h : reference.shapes.isSome) (inputs : List TensorView) (out : TensorView) :
    reference.execute inputs [out] =
      ((run reference.kernel inputs out).ended, [(run reference.kernel inputs out).out]) := by
  simp only [execute, Option.isNone_eq_false_iff.2 h, Bool.false_eq_true, if_false]

theorem ReferenceImplementation.execute_of_length_ne {reference : ReferenceImplementation}
    {outputs : List TensorView} (h : reference.shapes.isSome) (inputs : List TensorView)
    (hlength : outputs.length ≠ 1) : reference.execute inputs outputs =
      (.error (.refused (.execution "expected exactly one output")),
        outputs.map TensorView.data) := by
  match outputs, hlength with
  | [], _ | _ :: _ :: _, _ =>
    simp only [execute, Option.isNone_eq_false_iff.2 h, Bool.false_eq_true, if_false]
  | [_], hlength => exact absurd rfl hlength

/-- The rows of a reduction have as many elements together as its operand. -/
theorem ConcreteShapes.rows_lt {shapes : ConcreteShapes} {spec : ReduceSpec} {count : Nat}
    (hderived : shapes.DerivedBy (.reduce spec))
    (hcount : ∀ dims ∈ shapes.inputs, (elementCount? dims).isSome)
    (hcounted : elementCount? (shapes.outputs.headD []) = some count) :
    count * shapes.rowLength.toNat < Size.wordCount := by
  obtain ⟨dims, hdims, houtputs⟩ := hderived
  rw [houtputs, List.headD_cons] at hcounted
  unfold ConcreteShapes.rowLength
  match hinputs : shapes.inputs with
  | [input] =>
    rw [hinputs] at hdims hcount
    obtain ⟨total, htotal⟩ := Option.isSome_iff_exists.1 (hcount input (by simp))
    obtain ⟨rows, hrows, hmul⟩ := elementCount?_reduce hdims htotal
    obtain rfl := Option.some.inj (hrows.symm.trans hcounted)
    show rows * (input.getLast?.getD 1).toNat < _
    rw [hmul]
    exact lt_wordCount_of_elementCount? htotal
  | [] | _ :: _ :: _ =>
    rw [hinputs] at hdims
    simp [OpSpec.outputDims] at hdims

namespace ParallelImplementation

open CatalogueImplementation

variable {impl impl' : ParallelImplementation} {reference : ReferenceImplementation}
  {plan : KernelPlan} {planned shapes : ConcreteShapes} {inputs outputs : List TensorView}
  {op : OpSpec} {form : FinalizedForm} {table table' : PlanTable}

/-- On these arguments an implementation ends well exactly when the other one does, and leaves the
same elements; when it ends well, none of them is an old one. -/
structure Refines (impl : ParallelImplementation) (reference : ReferenceImplementation)
    (inputs outputs : List TensorView) : Prop where
  ended_iff : (impl.execute inputs outputs).1 = .ok () ↔
    (reference.execute inputs outputs).1 = .ok ()
  outputs_eq : (impl.execute inputs outputs).2 = (reference.execute inputs outputs).2
  written : (impl.execute inputs outputs).1 = .ok () → ∀ others : List TensorView,
    List.Forall₂ (fun out other ↦ other.data.dtype = out.data.dtype ∧
      other.data.size = out.data.size) outputs others →
    impl.execute inputs others = impl.execute inputs outputs

theorem execute_of_compiled (hcompiled : impl.compiled = some (plan, planned)) (dims : Dims)
    (o : Array F32) : impl.execute inputs [⟨dims, .f32 o⟩] =
      ((runPlan plan inputs o).ended, [.f32 (runPlan plan inputs o).out]) := by
  simp only [execute, hcompiled, floats, TensorData.asF32, Except.mapError]

theorem execute_of_length_ne (hcompiled : impl.compiled = some (plan, planned))
    (hlength : outputs.length ≠ 1) : impl.execute inputs outputs =
      (.error (.refused (.execution "expected exactly one output")),
        outputs.map TensorView.data) := by
  match outputs, hlength with
  | [], _ | _ :: _ :: _, _ => simp only [execute, hcompiled]
  | [_], hlength => exact absurd rfl hlength

/-- The old elements of the result do not matter to a run that ends well. -/
theorem runPlan_congr {o o' : Array F32} (hfloats : ∀ view ∈ inputs, view.data.dtype = .f32)
    (hsuits : plan.Suits (inputs.map TensorView.dims) o.size) (hsize : o'.size = o.size)
    (hended : (runPlan plan inputs o).ended = .ok ()) :
    runPlan plan inputs o' = runPlan plan inputs o := by
  have hkind : plan.kernel.sequential.kind.isExecutable = true := by
    cases plan.kernel <;> rfl
  have hmatches := runPlan_matches [] hfloats hsuits
  have hmatches' := runPlan_matches [] hfloats (hsize ▸ hsuits)
  have hagrees := (ReferenceImplementation.regular_run hkind inputs []).agrees (.f32 o') (.f32 o)
    rfl hsize
  have hsingle := hmatches.ended_iff.1 hended
  have hsingle' := hagrees.ended_eq.trans hsingle
  have hout := hmatches'.out_eq.symm.trans ((hagrees.out_eq hsingle').trans hmatches.out_eq)
  have hended' := hmatches'.ended_iff.2 hsingle'
  generalize runPlan plan inputs o = run at hended hout
  generalize runPlan plan inputs o' = run' at hended' hout
  obtain ⟨_, _⟩ := run
  obtain ⟨_, _⟩ := run'
  obtain rfl : _ = _ := hended
  obtain rfl : _ = _ := hended'
  exact congrArg _ (TensorData.f32.inj hout)

theorem refines_of_error {fault fault' : Fault} {left : List TensorData}
    (h : impl.execute inputs outputs = (.error fault, left))
    (h' : reference.execute inputs outputs = (.error fault', left)) :
    impl.Refines reference inputs outputs := by
  refine ⟨?_, by rw [h, h'], fun hended ↦ ?_⟩
  · rw [h, h']
    exact ⟨nofun, nofun⟩
  · rw [h] at hended
    cases hended

/-- By a plan that suits its arguments, an implementation refines the reference implementation of
the same operation. -/
theorem execute_refined (hcompiled : impl.compiled = some (plan, planned))
    (hkernel : reference.kernel = plan.kernel.sequential) (hshapes : reference.shapes.isSome)
    (hfloats : ∀ view ∈ inputs ++ outputs, view.data.dtype = .f32)
    (hsuits : ∀ out ∈ outputs, plan.Suits (inputs.map TensorView.dims) out.data.size) :
    impl.Refines reference inputs outputs := by
  have hinputs : ∀ view ∈ inputs, view.data.dtype = .f32 := fun view hmem ↦
    hfloats view (List.mem_append_left _ hmem)
  match outputs, hfloats, hsuits with
  | [⟨dims, data⟩], hfloats, hsuits =>
    obtain ⟨o, ho⟩ := exists_floats (hfloats ⟨dims, data⟩ (by simp))
    obtain rfl : data = .f32 o := congrArg TensorView.data ho
    have hplan := hsuits _ (List.mem_singleton_self _)
    have hmatches := runPlan_matches dims hinputs hplan
    rw [← hkernel] at hmatches
    have hsingle := ReferenceImplementation.execute_of_shapes hshapes inputs ⟨dims, .f32 o⟩
    refine ⟨?_, ?_, fun hended others hothers ↦ ?_⟩
    · rw [execute_of_compiled hcompiled, hsingle]
      exact hmatches.ended_iff
    · rw [execute_of_compiled hcompiled, hsingle, hmatches.out_eq]
    · obtain ⟨other, _, ⟨hdtype, hsize⟩, hnil, rfl⟩ := List.forall₂_cons_left_iff.1 hothers
      obtain rfl := List.forall₂_nil_left_iff.1 hnil
      obtain ⟨o', ho'⟩ := exists_floats (hdtype.trans rfl)
      rw [ho'] at hsize ⊢
      rw [execute_of_compiled hcompiled] at hended
      rw [execute_of_compiled hcompiled, execute_of_compiled hcompiled,
        runPlan_congr hinputs hplan hsize hended]
  | [], _, _ | _ :: _ :: _, _, _ =>
    exact refines_of_error (execute_of_length_ne hcompiled (by simp))
      (ReferenceImplementation.execute_of_length_ne hshapes inputs (by simp))

/-! ## Compiled plans -/

/-- Only the operation that an implementation was created for can be finalized. -/
theorem kernel_eq_of_planKey {key : ParallelKernel × Extent × Extent}
    (h : impl.planKey shapes op = .ok key) : impl.kernel = ParallelKernel.ofOp? op := by
  unfold planKey at h
  cases hkernel : impl.kernel with
  | none => simp [hkernel] at h
  | some kernel =>
    by_cases hop : ParallelKernel.ofOp? op = some kernel
    · exact hop.symm
    · simp [hkernel, hop] at h

/-- The plan of an implementation that was finalized suits all arguments with these extents. -/
theorem suits_of_finalize (htable : table.Compiled)
    (hcount : ∀ dims ∈ shapes.inputs, (elementCount? dims).isSome)
    (h : impl.finalize shapes op table = (.ok form, impl', table')) :
    table'.Compiled ∧ ∃ plan elements, impl'.compiled = some (plan, shapes) ∧
      ParallelKernel.ofOp? op = some plan.kernel ∧
      elementCount? (shapes.outputs.headD []) = some elements ∧
      plan.Suits shapes.inputs elements := by
  have hkernel : impl.kernel = ParallelKernel.ofOp? op := by
    unfold finalize at h
    cases hkey : impl.planKey shapes op with
    | error error =>
      rw [hkey] at h
      exact absurd (Prod.mk.inj h).1 error_ne_ok
    | ok key => exact kernel_eq_of_planKey hkey
  obtain ⟨kernel, elements, hop, hderived, helements, _, rfl, rfl⟩ :=
    (finalize_eq_ok_iff hkernel).1 h
  obtain ⟨count, hcounted, rfl⟩ := Option.map_eq_some_iff.1 helements
  obtain ⟨hplanned, helements, hinner⟩ :=
    table.compile_fst kernel (UInt64.ofNat count) shapes.rowLength
  obtain ⟨hcompiled, hchunked⟩ := htable.compile kernel (UInt64.ofNat count) shapes.rowLength
  generalize table.compile kernel (UInt64.ofNat count) shapes.rowLength = answer at *
  obtain ⟨plan, table'⟩ := answer
  refine ⟨hcompiled, plan, count, rfl, hplanned.symm ▸ hop, hcounted, ?_⟩
  have hword : plan.elements.toNat = count := by
    rw [helements]
    exact UInt64.toNat_ofNat_of_lt' (lt_wordCount_of_elementCount? hcounted)
  obtain ⟨threads, hchunk⟩ := hchunked.toNat_chunk
  refine ⟨hword, hinner, hchunk ▸ KernelPlan.taskChunk_pos, fun spec hspec ↦ ?_⟩
  have hreduces : op = .reduce spec := by
    rw [← hplanned, hspec] at hop
    cases op <;> simp [ParallelKernel.ofOp?] at hop
    exact congrArg _ hop
  have hrows : count * plan.inner.toNat < Size.wordCount := by
    rw [hinner]
    exact ConcreteShapes.rows_lt (hreduces ▸ hderived) hcount hcounted
  refine ⟨?_, hrows⟩
  rw [hchunk]
  exact KernelPlan.taskChunk_mul_lt plan.inner.toNat_lt (hword.symm ▸ hrows)

/-! ## Refinement -/

/-- By any plan that suits its arguments a parallel implementation refines the reference
implementation; the plans that are made for extents suit all arguments with these extents, for any
number of threads; and the pairs of chunks may be visited in any order. -/
theorem chunked_refines_sequential :
    (∀ (impl : ParallelImplementation) (reference : ReferenceImplementation) (plan : KernelPlan)
        (planned : ConcreteShapes) (inputs outputs : List TensorView),
      impl.compiled = some (plan, planned) → reference.kernel = plan.kernel.sequential →
      reference.shapes.isSome → (∀ view ∈ inputs ++ outputs, view.data.dtype = .f32) →
      (∀ out ∈ outputs, plan.Suits (inputs.map TensorView.dims) out.data.size) →
      impl.Refines reference inputs outputs) ∧
    (∀ (impl impl' : ParallelImplementation) (shapes : ConcreteShapes) (op : OpSpec)
        (form : FinalizedForm) (table table' : PlanTable),
      table.Compiled → (∀ dims ∈ shapes.inputs, (elementCount? dims).isSome) →
      impl.finalize shapes op table = (.ok form, impl', table') →
      table'.Compiled ∧ ∃ plan elements, impl'.compiled = some (plan, shapes) ∧
        ParallelKernel.ofOp? op = some plan.kernel ∧
        elementCount? (shapes.outputs.headD []) = some elements ∧
        plan.Suits shapes.inputs elements) ∧
    ∀ {β : Type} (update : List F32 → β → List F32) (size : Nat) (out : Array F32)
        (sources : List β) (order : List Nat),
      order.Perm (List.range (min (chunks size out.toList).length sources.length)) →
      (updateIn update order (chunks size out.toList) sources).flatten.toArray =
        overChunks update size out sources := by
  refine ⟨?_, ?_, ?_⟩
  · intro impl reference plan planned inputs outputs hcompiled hkernel hshapes hfloats hsuits
    exact execute_refined hcompiled hkernel hshapes hfloats hsuits
  · intro impl impl' shapes op form table table' htable hcount h
    exact suits_of_finalize htable hcount h
  · intro β update size out sources order horder
    rw [updateIn_eq_updateWith horder, overChunks]

/-- Three rows that are each worth a chunk. -/
def longRows : ConcreteShapes := ⟨[[3, 4096]], [[3]]⟩

/-- The reduction of three long rows, made for two threads. -/
def longSums : ParallelImplementation :=
  (finalize ⟨"parallel.reduce", some (.reduce ⟨.sum, false⟩), none⟩ longRows
    (.reduce ⟨.sum, false⟩) { threads := 2 }).2.1

theorem chunked_refines_sequential_longSums :
    longSums.compiled = some (⟨.reduce ⟨.sum, false⟩, 3, 4096, 1⟩, longRows) ∧
      longSums.Refines ⟨.reduce ⟨.sum, false⟩, some longRows⟩
        [⟨[3, 4096], .f32 (.ofFn fun i : Fin 12288 ↦ ⟨.ofNat i⟩)⟩]
        [⟨[3], .f32 #[⟨7⟩, ⟨8⟩, ⟨9⟩]⟩] ∧
      (updateIn (· ++ ·) [1, 0] (chunks 2 [⟨7⟩, ⟨8⟩, ⟨9⟩]) [[⟨0⟩], [⟨1⟩]]).flatten.toArray =
        overChunks (· ++ ·) 2 #[(⟨7⟩ : F32), ⟨8⟩, ⟨9⟩] [[⟨0⟩], [⟨1⟩]] := by
  obtain ⟨hruns, hplans, horders⟩ := chunked_refines_sequential
  obtain ⟨_, plan, elements, hcompiled, hop, helements, hsuits⟩ :=
    hplans _ longSums longRows (.reduce ⟨.sum, false⟩) _ { threads := 2 } _ nofun (by decide)
      (Prod.ext rfl (Prod.ext rfl rfl))
  have hkernel : ParallelKernel.reduce ⟨.sum, false⟩ = plan.kernel := Option.some.inj hop
  obtain rfl : 3 = elements := Option.some.inj helements
  refine ⟨by decide, hruns _ _ plan longRows _ _ hcompiled (hkernel ▸ rfl) rfl ?_ ?_, ?_⟩
  · intro view hview
    rcases List.mem_pair.1 hview with rfl | rfl <;> rfl
  · intro out hout
    obtain rfl := List.mem_singleton.1 hout
    exact hsuits
  · exact horders _ 2 #[⟨7⟩, ⟨8⟩, ⟨9⟩] _ [1, 0] (by simp [chunks]; decide)

/-- The negation of so many elements in one row has a plan whose products fit no word; there is no
product that an elementwise operation forms. -/
theorem compile_exceeds_word :
    elementCount? [1, 0x200000000] = some 0x200000000 ∧ PlanTable.Compiled {} ∧
      ∃ plan, (finalize ⟨"parallel.elementwise_unary", some (.unary .neg), none⟩
          ⟨[[1, 0x200000000]], [[1, 0x200000000]]⟩ (.unary .neg) {}).2.1.compiled =
          some (plan, ⟨[[1, 0x200000000]], [[1, 0x200000000]]⟩) ∧
        ¬plan.elements.toNat * plan.inner.toNat < Size.wordCount := by
  exact ⟨by decide, nofun, ⟨.unary .neg, 0x200000000, 0x200000000, 0x20000000⟩, by decide,
    by decide⟩

end ParallelImplementation

end TensorEngine
