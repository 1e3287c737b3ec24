import TensorEngine.Proofs.Kernel.Refusals

/-!
# Products that kernels form

A reduction and a matrix product multiply extents, and break down when the product does not fit a
word.  When the extents of the result are those that an operation derives from the operands, and
every view has as many elements as its extents say, such a product is the number of elements of an
operand or of the result.  So it fits a word, and no index leaves its operand.
-/

namespace TensorEngine

open CatalogueImplementation Kernel

variable {op : OpSpec} {inputs : List TensorView} {out : TensorView}

namespace RefKernel

def products (kernel : RefKernel) (inputs : List TensorView) (out : TensorView) : List Nat :=
  match kernel, inputs with
  | .reduce _, [input] => [out.data.size * innerExtent input.dims]
  | .matMul spec, [lhs, rhs] =>
    match spec.extents lhs.dims rhs.dims with
    | .ok (m, k, n) =>
      [m.toNat * k.toNat, k.toNat * n.toNat, m.toNat * n.toNat]
    | .error _ => []
  | _, _ => []

/-- The products fit a word, and the kernel does not break down. -/
structure InBounds (kernel : RefKernel) (inputs : List TensorView) (out : TensorView) : Prop where
  products_lt : ∀ product ∈ kernel.products inputs out, product < Size.wordCount
  mild : Mild (ReferenceImplementation.run kernel inputs out).ended

end RefKernel

/-- Views whose extents are those of an operation, with as many elements as these say. -/
structure OpSpec.Views (op : OpSpec) (inputs : List TensorView) (out : TensorView) : Prop where
  sized : ∀ view ∈ inputs, elementCount? view.dims = some view.data.size
  derived : op.outputDims (inputs.map TensorView.dims) = .ok out.dims
  out_sized : elementCount? out.dims = some out.data.size

namespace OpSpec.Views

/-- The views are arguments of a node that declares nothing but their element types. -/
theorem arguments (h : op.Views inputs out) :
    Arguments ⟨⟨0⟩, op, [], [.ofDims out.data.dtype []]⟩
      (inputs.map fun view ↦ .ofDims view.data.dtype [])
      ⟨inputs.map TensorView.dims, [out.dims]⟩ inputs out where
  dims_eq := rfl
  sized := h.sized
  dtypes := by
    rw [List.forall₂_map_right_iff]
    exact List.forall₂_same.2 fun _ _ ↦ rfl
  derived := h.derived
  out_sized := h.out_sized
  out_dtype := rfl

/-- Every product is the number of elements of a view. -/
theorem products_lt (h : op.Views inputs out) :
    ∀ product ∈ (RefKernel.ofOp op).products inputs out, product < Size.wordCount := by
  cases op with
  | reduce spec =>
    obtain ⟨input, rfl, _, hlt⟩ := h.arguments.reduce rfl
    exact List.forall_mem_singleton.2 hlt
  | matMul spec =>
    obtain ⟨lhs, rhs, m, k, n, rfl, hextents, hmk, hkn, hmn⟩ := h.arguments.matMul rfl
    simp only [RefKernel.ofOp, RefKernel.products, hextents, List.forall_mem_cons]
    exact ⟨hmk, hkn, hmn, List.forall_mem_nil _⟩
  | parameter | constant | binary | unary | reshape | reorder => exact List.forall_mem_nil _

/-- On the views of an operation its kernel stays in bounds. -/
theorem inBounds (h : op.Views inputs out) : (RefKernel.ofOp op).InBounds inputs out :=
  ⟨h.products_lt, mild_run h.arguments⟩

end OpSpec.Views

/-- The kernel of a parameter does nothing, whatever it is given. -/
theorem RefKernel.inBounds_parameter : RefKernel.parameter.InBounds inputs out := by
  refine ⟨List.forall_mem_nil _, ?_⟩
  match inputs with
  | [] => exact mild_ok ()
  | _ :: _ => exact mild_refused rfl

end TensorEngine
