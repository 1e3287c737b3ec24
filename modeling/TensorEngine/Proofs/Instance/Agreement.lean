import TensorEngine.Proofs.Instance.Conformance

/-!
# Agreement with the reference kernel

On arguments that fit the extents of a run, an implementation that serves these extents ends like
the reference kernel and leaves the same elements.  A parallel implementation works on chunks and
the bounded one pairs elements, so each is brought to the loop over single elements first.
-/

namespace TensorEngine.CatalogueImplementation

open Kernel PrimitiveInstance

variable {node : Node} {declared : List Layout} {shapes : ConcreteShapes}
  {impl : CatalogueImplementation} {env : Environment} {inputs : List TensorView}
  {out : TensorView}

/-- The arguments of a run have the extents and the declared element types. -/
structure Arguments (node : Node) (declared : List Layout) (shapes : ConcreteShapes)
    (inputs : List TensorView) (out : TensorView) : Prop where
  dims_eq : inputs.map TensorView.dims = shapes.inputs
  sized : ∀ view ∈ inputs, elementCount? view.dims = some view.data.size
  dtypes : List.Forall₂ (fun view layout ↦ view.data.dtype = layout.dtype) inputs declared
  derived : node.op.outputDims shapes.inputs = .ok out.dims
  out_sized : elementCount? out.dims = some out.data.size
  out_dtype : out.data.dtype = node.output.dtype

/-! ## Arguments that fit an operation -/

namespace Arguments

private theorem outputDims_eq (hargs : Arguments node declared shapes inputs out) {op : OpSpec}
    (hop : node.op = op) : op.outputDims (inputs.map TensorView.dims) = .ok out.dims := by
  rw [hargs.dims_eq, ← hop]
  exact hargs.derived

/-- Both operands of a binary operation have as many elements as the result. -/
theorem binary (hargs : Arguments node declared shapes inputs out) {op : BinaryOp}
    (hop : node.op = .binary op) : ∃ lhs rhs, inputs = [lhs, rhs] ∧
      lhs.data.size = out.data.size ∧ rhs.data.size = out.data.size := by
  have hderived := hargs.outputDims_eq hop
  match inputs, hargs, hderived with
  | [lhs, rhs], hargs, hderived =>
    simp only [OpSpec.outputDims, List.map_cons, List.map_nil] at hderived
    split at hderived
    · rename_i hsame
      have hlhs := hargs.sized lhs (List.mem_cons_self ..)
      have hrhs := hargs.sized rhs (List.mem_cons_of_mem _ (List.mem_cons_self ..))
      have hout := hargs.out_sized
      rw [← Except.ok.inj hderived] at hout
      rw [← hsame] at hrhs
      exact ⟨lhs, rhs, rfl, Option.some.inj (hlhs.symm.trans hout),
        Option.some.inj (hrhs.symm.trans hout)⟩
    · cases hderived
  | [], _, hderived => simp [OpSpec.outputDims] at hderived
  | [_], _, hderived => simp [OpSpec.outputDims] at hderived
  | _ :: _ :: _ :: _, _, hderived => simp [OpSpec.outputDims] at hderived

/-- The operand of a unary operation has as many elements as the result. -/
theorem unary (hargs : Arguments node declared shapes inputs out) {op : UnaryOp}
    (hop : node.op = .unary op) :
    ∃ input, inputs = [input] ∧ input.data.size = out.data.size := by
  have hderived := hargs.outputDims_eq hop
  match inputs, hargs, hderived with
  | [input], hargs, hderived =>
    have hinput := hargs.sized input (List.mem_cons_self ..)
    have hout := hargs.out_sized
    rw [← Except.ok.inj hderived] at hout
    exact ⟨input, rfl, Option.some.inj (hinput.symm.trans hout)⟩
  | [], _, hderived => simp [OpSpec.outputDims] at hderived
  | _ :: _ :: _, _, hderived => simp [OpSpec.outputDims] at hderived

/-- The operand of a reduction has a row for every element of the result. -/
theorem reduce (hargs : Arguments node declared shapes inputs out) {spec : ReduceSpec}
    (hop : node.op = .reduce spec) : ∃ input, inputs = [input] ∧
      input.data.size = out.data.size * innerExtent input.dims ∧
      out.data.size * innerExtent input.dims < Size.wordCount := by
  have hderived := hargs.outputDims_eq hop
  match inputs, hargs, hderived with
  | [input], hargs, hderived =>
    have hcount := hargs.sized input (List.mem_cons_self ..)
    obtain ⟨rows, hrows, hmul⟩ := elementCount?_reduce hderived hcount
    obtain rfl : out.data.size = rows := Option.some.inj (hargs.out_sized.symm.trans hrows)
    have hword := lt_wordCount_of_elementCount? hcount
    rw [← hmul] at hword
    exact ⟨input, rfl, hmul.symm, hword⟩
  | [], _, hderived => simp [OpSpec.outputDims] at hderived
  | _ :: _ :: _, _, hderived => simp [OpSpec.outputDims] at hderived

/-- A matrix product multiplies up the numbers of elements of its operands and its result. -/
theorem matMul (hargs : Arguments node declared shapes inputs out) {spec : MatMulSpec}
    (hop : node.op = .matMul spec) : ∃ lhs rhs m k n, inputs = [lhs, rhs] ∧
      spec.extents lhs.dims rhs.dims = .ok (m, k, n) ∧
      m.toNat * k.toNat < Size.wordCount ∧ k.toNat * n.toNat < Size.wordCount ∧
      m.toNat * n.toNat < Size.wordCount := by
  have hderived := hargs.outputDims_eq hop
  match inputs, hargs, hderived with
  | [lhs, rhs], hargs, hderived =>
    obtain ⟨⟨m, k, n⟩, hextents, hdims⟩ := bind_eq_ok_iff.1 hderived
    obtain ⟨hvolume, hvolume'⟩ := volume_of_extents hextents
    have hword : ∀ {dims count}, elementCount? dims = some count → volume dims < Size.wordCount :=
      fun h ↦ eq_volume_of_elementCount? h ▸ lt_wordCount_of_elementCount? h
    have hlhs := hword (hargs.sized lhs (List.mem_cons_self ..))
    have hrhs := hword (hargs.sized rhs (List.mem_cons_of_mem _ (List.mem_cons_self ..)))
    have hout := hword hargs.out_sized
    rw [← Except.ok.inj hdims] at hout
    exact ⟨lhs, rhs, m, k, n, rfl, hextents, hvolume ▸ hlhs, hvolume' ▸ hrhs, by
      simpa [volume] using hout⟩
  | [], _, hderived => simp [OpSpec.outputDims] at hderived
  | [_], _, hderived => simp [OpSpec.outputDims] at hderived
  | _ :: _ :: _ :: _, _, hderived => simp [OpSpec.outputDims] at hderived

end Arguments

private theorem eq_f32 {data : TensorData} (h : data.dtype = .f32) :
    ∃ values, data = .f32 values := by
  cases data with
  | f32 values => exact ⟨values, rfl⟩
  | i32 | u8 => cases h

private theorem out_eq_f32 (hargs : Arguments node declared shapes inputs out)
    (hfloat : AllFloat node declared) (hout : node.outputs = [node.output]) :
    ∃ values, out.data = .f32 values :=
  eq_f32 (hargs.out_dtype.trans (hfloat node.output (by simp [hout])))

private theorem input_eq_f32 (hargs : Arguments node declared shapes inputs out)
    (hfloat : AllFloat node declared) {view : TensorView} (hview : view ∈ inputs) :
    ∃ values, view.data = .f32 values := by
  obtain ⟨i, hi, rfl⟩ := List.getElem_of_mem hview
  have hdtypes := List.forall₂_iff_get.1 hargs.dtypes
  refine eq_f32 ((hdtypes.2 i hi (hdtypes.1 ▸ hi)).trans (hfloat _ ?_))
  exact List.mem_append_left _ (List.get_mem _ _)

private theorem binary_floats {op : BinaryOp} (hop : node.op = .binary op)
    (hargs : Arguments node declared shapes inputs out) (hfloat : AllFloat node declared)
    (hout : node.outputs = [node.output]) :
    ∃ lhsDims rhsDims a b o, inputs = [⟨lhsDims, .f32 a⟩, ⟨rhsDims, .f32 b⟩] ∧
      out.data = .f32 o ∧ a.size = o.size ∧ b.size = o.size := by
  obtain ⟨⟨lhsDims, _⟩, ⟨rhsDims, _⟩, rfl, ha, hb⟩ := hargs.binary hop
  obtain ⟨a, rfl⟩ := input_eq_f32 hargs hfloat (List.mem_cons_self ..)
  obtain ⟨b, rfl⟩ := input_eq_f32 hargs hfloat (List.mem_cons_of_mem _ (List.mem_cons_self ..))
  obtain ⟨o, ho⟩ := out_eq_f32 hargs hfloat hout
  rw [ho] at ha hb
  exact ⟨lhsDims, rhsDims, a, b, o, rfl, ho, ha, hb⟩

/-! ## Runs of these operations -/

section

variable {elements inner chunk : Extent} {dims lhsDims rhsDims outDims : Dims}
  {a b o : Array F32}

theorem run_binary {op : BinaryOp} (ha : a.size = o.size) (hb : b.size = o.size) :
    ReferenceImplementation.run (.ofOp (.binary op)) [⟨lhsDims, .f32 a⟩, ⟨rhsDims, .f32 b⟩]
      ⟨outDims, .f32 o⟩ = ⟨.ok (), .f32 (Array.zipWith op.applyF32 a b)⟩ := by
  show (zipWith (fun x y ↦ .ok (op.applyF32 x y)) a b o).map TensorData.f32 = _
  rw [zipWith_eq ha hb]
  rfl

theorem run_unary {op : UnaryOp} (ha : a.size = o.size) :
    ReferenceImplementation.run (.ofOp (.unary op)) [⟨dims, .f32 a⟩] ⟨outDims, .f32 o⟩ =
      ⟨.ok (), .f32 (a.map op.applyF32)⟩ := by
  show (Kernel.map (fun x ↦ .ok (op.applyF32 x)) a o).map TensorData.f32 = _
  rw [map_eq ha]
  rfl

theorem run_reduce {spec : ReduceSpec} (ha : a.size = o.size * innerExtent dims)
    (hword : o.size * innerExtent dims < Size.wordCount) :
    ReferenceImplementation.run (.ofOp (.reduce spec)) [⟨dims, .f32 a⟩] ⟨outDims, .f32 o⟩ =
      ⟨.ok (), .f32 (rowValues spec.kind.rowF32 (innerExtent dims) o.size a)⟩ := by
  show (reduceRows spec.kind.rowF32 (innerExtent dims) a o).map TensorData.f32 = _
  rw [reduceRows_eq ha hword]
  rfl

variable (hsize : elements.toNat = o.size)

include hsize

/-- A plan for a result of this size runs its kernel on chunks. -/
theorem runPlan_eq_zipWithChunked (op : BinaryOp) :
    ParallelImplementation.runPlan ⟨.binary op, elements, inner, chunk⟩
      [⟨lhsDims, .f32 a⟩, ⟨rhsDims, .f32 b⟩] o =
        zipWithChunked op.applyF32 chunk.toNat a b o := by
  unfold ParallelImplementation.runPlan
  rw [if_neg (not_not.2 hsize.symm)]
  rfl

theorem runPlan_eq_mapChunked (op : UnaryOp) :
    ParallelImplementation.runPlan ⟨.unary op, elements, inner, chunk⟩ [⟨dims, .f32 a⟩] o =
      mapChunked op.applyF32 chunk.toNat a o := by
  unfold ParallelImplementation.runPlan
  rw [if_neg (not_not.2 hsize.symm)]
  rfl

theorem runPlan_eq_reduceChunked (spec : ReduceSpec) :
    ParallelImplementation.runPlan ⟨.reduce spec, elements, inner, chunk⟩ [⟨dims, .f32 a⟩] o =
      reduceChunked spec.kind.rowF32 chunk.toNat inner.toNat a o := by
  unfold ParallelImplementation.runPlan
  rw [if_neg (not_not.2 hsize.symm)]
  rfl

theorem runPlan_reduce {spec : ReduceSpec} (hchunk : inner.toNat ≠ 0 → chunk.toNat ≠ 0)
    (hinner : inner.toNat = innerExtent dims) (ha : a.size = o.size * innerExtent dims)
    (hword : o.size * innerExtent dims < Size.wordCount)
    (hrows : chunk.toNat * innerExtent dims < Size.wordCount) :
    ParallelImplementation.runPlan ⟨.reduce spec, elements, inner, chunk⟩ [⟨dims, .f32 a⟩] o =
      ⟨.ok (), rowValues spec.kind.rowF32 (innerExtent dims) o.size a⟩ := by
  rw [runPlan_eq_reduceChunked hsize, hinner]
  exact reduceChunked_eq (hinner ▸ hchunk) ha hword hrows

variable (hchunk : chunk.toNat ≠ 0)

include hchunk

theorem runPlan_binary {op : BinaryOp} (ha : a.size = o.size) (hb : b.size = o.size) :
    ParallelImplementation.runPlan ⟨.binary op, elements, inner, chunk⟩
      [⟨lhsDims, .f32 a⟩, ⟨rhsDims, .f32 b⟩] o = ⟨.ok (), Array.zipWith op.applyF32 a b⟩ :=
  (runPlan_eq_zipWithChunked hsize op).trans (zipWithChunked_eq hchunk ha hb)

theorem runPlan_unary {op : UnaryOp} (ha : a.size = o.size) :
    ParallelImplementation.runPlan ⟨.unary op, elements, inner, chunk⟩ [⟨dims, .f32 a⟩] o =
      ⟨.ok (), a.map op.applyF32⟩ :=
  (runPlan_eq_mapChunked hsize op).trans (mapChunked_eq hchunk ha)

end

/-! ## Agreement -/

private theorem runPlan_eq {plan : KernelPlan} {kernel : ParallelKernel} {dims : Dims}
    {count : Nat} (hargs : Arguments node declared shapes inputs out)
    (hfloat : AllFloat node declared) (hout : node.outputs = [node.output])
    (hop : ParallelKernel.ofOp? node.op = some kernel) (hkernel : plan.kernel = kernel)
    (hdims : node.op.outputDims shapes.inputs = .ok dims) (hcount : elementCount? dims = some count)
    (helements : plan.elements = UInt64.ofNat count)
    (hinner : plan.inner = (shapes.inputs.head?.bind List.getLast?).getD 1)
    (hrunnable : plan.Runnable) :
    ∃ o result, out.data = .f32 o ∧
      ParallelImplementation.runPlan plan inputs o = ⟨.ok (), result⟩ ∧
      ReferenceImplementation.run (.ofOp node.op) inputs out = ⟨.ok (), .f32 result⟩ := by
  obtain ⟨kernel, elements, inner, chunk⟩ := plan
  simp only at hkernel helements hinner
  subst hkernel
  obtain rfl : dims = out.dims := Except.ok.inj (hdims.symm.trans hargs.derived)
  obtain rfl : count = out.data.size := Option.some.inj (hcount.symm.trans hargs.out_sized)
  have hsize : elements.toNat = out.data.size := by
    rw [helements]
    exact UInt64.toNat_ofNat_of_lt' (lt_wordCount_of_elementCount? hcount)
  obtain ⟨outDims, data⟩ := out
  obtain ⟨o, rfl⟩ := out_eq_f32 hargs hfloat hout
  cases hnode : node.op with
  | binary op =>
    obtain ⟨_, _, a, b, _, rfl, ho, ha, hb⟩ := binary_floats hnode hargs hfloat hout
    obtain rfl := TensorData.f32.inj ho
    rw [hnode] at hop
    obtain rfl := Option.some.inj hop
    have hchunk : chunk.toNat ≠ 0 := fun hzero ↦ nomatch hrunnable.chunk_eq_zero hzero
    exact ⟨_, _, rfl, runPlan_binary hsize hchunk ha hb, run_binary ha hb⟩
  | unary op =>
    obtain ⟨⟨_, _⟩, rfl, ha⟩ := hargs.unary hnode
    obtain ⟨a, rfl⟩ := input_eq_f32 hargs hfloat (List.mem_cons_self ..)
    rw [hnode] at hop
    obtain rfl := Option.some.inj hop
    have hchunk : chunk.toNat ≠ 0 := fun hzero ↦ nomatch hrunnable.chunk_eq_zero hzero
    exact ⟨_, _, rfl, runPlan_unary hsize hchunk ha, run_unary ha⟩
  | reduce spec =>
    obtain ⟨⟨dims, _⟩, rfl, ha, hword⟩ := hargs.reduce hnode
    obtain ⟨a, rfl⟩ := input_eq_f32 hargs hfloat (List.mem_cons_self ..)
    rw [hnode] at hop
    obtain rfl := Option.some.inj hop
    rw [← hargs.dims_eq] at hinner
    have hrow : inner.toNat = innerExtent dims := by
      rw [hinner]
      rfl
    have hchunk : inner.toNat ≠ 0 → chunk.toNat ≠ 0 := fun hne hzero ↦ by
      obtain ⟨_, _, hnone⟩ := hrunnable.chunk_eq_zero hzero
      exact hne hnone
    have hrows := hrunnable.rows_lt spec rfl
    simp only [hsize, hrow] at hrows
    exact ⟨_, _, rfl, runPlan_reduce hsize hchunk hrow ha hword (hrows hword),
      run_reduce ha hword⟩
  | parameter | constant | matMul | reshape | reorder =>
    rw [hnode] at hop
    cases hop

/-- On fitting arguments, an implementation that serves the extents ends like the reference kernel
and leaves the same elements. -/
theorem execute_eq (env : Environment) (hserves : Serves node declared shapes impl)
    (hargs : Arguments node declared shapes inputs out) (hout : node.outputs = [node.output]) :
    ∃ result, Implementation.execute impl inputs [out] env =
        (result, [(ReferenceImplementation.run (.ofOp node.op) inputs out).out], env) ∧
      result.mapError (faultError (Implementation.name impl)) =
        (ReferenceImplementation.run (.ofOp node.op) inputs out).ended.mapError
          (faultError (ReferenceImplementation.nameOf node.kind)) := by
  cases impl with
  | reference reference =>
    obtain ⟨hkernel, hshapes⟩ := hserves
    have hname : Implementation.name (CatalogueImplementation.reference reference) =
        ReferenceImplementation.nameOf node.kind := by
      show ReferenceImplementation.nameOf reference.kernel.kind = _
      rw [hkernel]
      congr 1
      unfold Node.kind
      cases node.op <;> rfl
    refine ⟨(ReferenceImplementation.run (.ofOp node.op) inputs out).ended, ?_, ?_⟩
    · show pureAnswer id env ((reference.execute inputs [out]).1,
        (reference.execute inputs [out]).2, ()) = _
      simp only [ReferenceImplementation.execute, Option.isNone_eq_false_iff.2 hshapes,
        Bool.false_eq_true, if_false, hkernel]
      rfl
    · rw [hname]
  | parallel parallel =>
    obtain ⟨hfloat, kernel, dims, count, plan, planned, _, hop, hcompiled, hkernel, hdims, hcount,
      helements, hinner, hrunnable⟩ := hserves
    obtain ⟨o, values, ho, hplan, hrun⟩ := runPlan_eq hargs hfloat hout hop hkernel hdims hcount
      helements hinner hrunnable
    refine ⟨.ok (), ?_, by rw [hrun]; rfl⟩
    show planAnswer id env ((parallel.execute inputs [out]).1,
      (parallel.execute inputs [out]).2, env.plans) = _
    rw [ParallelImplementation.execute, hcompiled]
    simp only [ParallelImplementation.floats, ho, TensorData.asF32, Except.mapError, hplan, hrun]
    rfl
  | limited limited =>
    obtain ⟨hfloat, rfl, hsome⟩ := hserves
    obtain ⟨op, hop⟩ : ∃ op, node.op = .binary op := by
      unfold LimitedImplementation.ofNode at hsome
      cases hnode : node.op <;> simp [hnode] at hsome ⊢
    have hlimited : LimitedImplementation.ofNode node = ⟨some op⟩ := by
      simp only [LimitedImplementation.ofNode, hop]
    obtain ⟨outDims, data⟩ := out
    obtain ⟨lhsDims, rhsDims, a, b, o, rfl, rfl, ha, hb⟩ := binary_floats hop hargs hfloat hout
    have hrun : ReferenceImplementation.run (.ofOp node.op)
        [⟨lhsDims, .f32 a⟩, ⟨rhsDims, .f32 b⟩] ⟨outDims, .f32 o⟩ =
          ⟨.ok (), .f32 (Array.zipWith op.applyF32 a b)⟩ := hop ▸ run_binary ha hb
    refine ⟨.ok (), ?_, by rw [hrun]; rfl⟩
    rw [hlimited, hrun, ← combine_eq ha hb]
    rfl
  | gemm | failing | scripted => exact hserves.elim

end TensorEngine.CatalogueImplementation
