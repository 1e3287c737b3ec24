import TensorEngine.Proofs.Instance.Agreement

/-!
# How kernels fail

A kernel may refuse its operands, or an element that has no value; then it reports a failure and
the device stays intact.  It breaks down only where a product of lengths does not fit a word: once
the lengths are checked, no index leaves its operand.  On arguments that fit the extents of a run
these products are numbers of elements, so a kernel never breaks down.
-/

namespace TensorEngine

/-- A reported failure that leaves the device intact. -/
def Fault.Mild : Fault → Prop
  | .refused error => error.isCorrupting = false
  | .panicked _ => False

namespace Kernel

variable {α β : Type}

/-- A step that fails mildly, if at all. -/
def Mild (result : Except Fault α) : Prop := ∀ fault, result = .error fault → fault.Mild

theorem mild_ok (a : α) : Mild (.ok a) := nofun

theorem mild_refused {error : BackendError} (h : error.isCorrupting = false) :
    Mild (.error (.refused error) : Except Fault α) := by
  intro fault hfault
  obtain rfl := Except.error.inj hfault
  exact h

theorem mild_bind {x : Except Fault α} {f : α → Except Fault β} (hx : Mild x)
    (hf : ∀ a, x = .ok a → Mild (f a)) : Mild (x >>= f) := by
  intro fault hfault
  rcases bind_eq_error_iff.1 hfault with hfault | ⟨a, ha, hfault⟩
  · exact hx fault hfault
  · exact hf a ha fault hfault

theorem mild_map {x : Except Fault α} {f : α → β} (hx : Mild x) : Mild (f <$> x) := by
  cases x with
  | error fault =>
    intro other hother
    obtain rfl := Except.error.inj hother
    exact hx _ rfl
  | ok a => exact mild_ok (f a)

theorem mild_lift {result : Except BackendError α}
    (h : ∀ error, result = .error error → error.isCorrupting = false) : Mild (lift result) := by
  cases result with
  | error error => exact mild_refused (h error rfl)
  | ok a => exact mild_ok a

theorem mild_element {values : Array α} {j : Nat} (h : j < values.size) :
    Mild (element values j) := by
  rw [element_eq_ok h]
  exact mild_ok _

/-! ## Loops -/

section

variable {compute : Nat → Except Fault α} {check : Except Fault Unit} {index : Nat}
  {out : Array α}

/-- A loop fails as one of its elements does. -/
theorem mild_fillFrom (h : ∀ i < out.size, Mild (compute i)) :
    Mild (fillFrom compute index out).ended := by
  fun_induction fillFrom compute index out with
  | case1 index out hlt value hvalue ih =>
    refine ih fun i hi ↦ h i ?_
    rwa [Array.size_set] at hi
  | case2 index out hlt fault hfault =>
    intro other hother
    obtain rfl := Except.error.inj hother
    exact h index hlt _ hfault
  | case3 => exact mild_ok ()

theorem mild_fillAfter (hcheck : Mild check)
    (h : check = .ok () → ∀ i < out.size, Mild (compute i)) :
    Mild (fillAfter check compute out).ended := by
  unfold fillAfter
  split
  · exact mild_fillFrom (h rfl)
  · exact hcheck

/-- Checks of lengths only refuse. -/
theorem mild_checkLength {what : String} {expected actual : Nat} :
    Mild (checkLength what expected actual) := by
  unfold checkLength
  split
  · exact mild_ok ()
  · exact mild_refused rfl

theorem mild_times {a b : Nat} (h : a * b < Size.wordCount) : Mild (times a b) := by
  rw [times_of_lt h]
  exact mild_ok _

theorem eq_of_checkLength {what : String} {expected actual : Nat} {u : Unit}
    (h : checkLength what expected actual = .ok u) : expected = actual := by
  unfold checkLength at h
  split at h
  · assumption
  · cases h

end

/-! ## Single elements -/

theorem isCorrupting_of_applyI32 {op : BinaryOp} {x y : Int32} {error : BackendError}
    (h : op.applyI32 x y = .error error) : error.isCorrupting = false := by
  cases op with
  | div =>
    simp only [BinaryOp.applyI32] at h
    split at h
    · obtain rfl := Except.error.inj h
      rfl
    · cases h
  | add | sub | mul | maximum | minimum => cases h

theorem isCorrupting_of_applyU8 {op : BinaryOp} {x y : UInt8} {error : BackendError}
    (h : op.applyU8 x y = .error error) : error.isCorrupting = false := by
  cases op with
  | div =>
    simp only [BinaryOp.applyU8] at h
    split at h
    · obtain rfl := Except.error.inj h
      rfl
    · cases h
  | add | sub | mul | maximum | minimum => cases h

theorem isCorrupting_of_unaryI32 {op : UnaryOp} {x : Int32} {error : BackendError}
    (h : op.applyI32 x = .error error) : error.isCorrupting = false := by
  cases op with
  | exp | tanh =>
    obtain rfl := Except.error.inj h
    rfl
  | neg | abs | relu => cases h

theorem isCorrupting_of_unaryU8 {op : UnaryOp} {x : UInt8} {error : BackendError}
    (h : op.applyU8 x = .error error) : error.isCorrupting = false := by
  cases op with
  | neg | abs | exp | tanh =>
    obtain rfl := Except.error.inj h
    rfl
  | relu => cases h

/-! ## Kernels -/

section

variable {lhs rhs input out : Array α}

theorem mild_zipWith {apply : α → α → Except BackendError α}
    (happly : ∀ {x y error}, apply x y = .error error → error.isCorrupting = false) :
    Mild (zipWith apply lhs rhs out).ended := by
  refine mild_fillAfter (mild_bind mild_checkLength fun _ _ ↦ mild_checkLength)
    fun hcheck i hi ↦ ?_
  · obtain ⟨_, hlhs, hrhs⟩ := bind_eq_ok_iff.1 hcheck
    replace hlhs := eq_of_checkLength hlhs
    replace hrhs := eq_of_checkLength hrhs
    refine mild_bind (mild_element (hlhs ▸ hi)) fun x _ ↦ ?_
    exact mild_bind (mild_element (hrhs ▸ hi)) fun y _ ↦ mild_lift fun _ ↦ happly

theorem mild_mapElements {apply : α → Except BackendError α}
    (happly : ∀ {x error}, apply x = .error error → error.isCorrupting = false) :
    Mild (Kernel.map apply input out).ended := by
  refine mild_fillAfter mild_checkLength fun hcheck i hi ↦ ?_
  rw [eq_of_checkLength hcheck] at hi
  exact mild_bind (mild_element hi) fun x _ ↦ mild_lift fun _ ↦ happly

/-- A reduction breaks down at nothing but the product that it forms. -/
theorem mild_reduceRows {row : Array α → α} {inner : Nat} (h : out.size * inner < Size.wordCount) :
    Mild (reduceRows row inner input out).ended := by
  refine mild_fillAfter (mild_bind (mild_times h) fun _ _ ↦ mild_checkLength)
    fun hcheck i hi ↦ mild_map ?_
  rw [times_of_lt h, ok_bind] at hcheck
  rw [slice, if_pos (eq_of_checkLength hcheck ▸ Nat.mul_le_mul_right _ hi)]
  exact mild_ok _

theorem mild_copyArray : Mild (copyArray input out).ended := by
  refine mild_fillAfter mild_checkLength fun hcheck i hi ↦ ?_
  exact mild_element (eq_of_checkLength hcheck ▸ hi)

theorem mild_dot [Add α] [Mul α] [Zero α] {count : Nat} {left right : Nat → Except Fault α}
    (hleft : ∀ p < count, Mild (left p)) (hright : ∀ p < count, Mild (right p)) :
    Mild (dot count left right) := by
  have hfold : ∀ (indices : List Nat) (sum : α), (∀ p ∈ indices, p < count) →
      Mild (indices.foldlM (fun sum p ↦ do return sum + (← left p) * (← right p)) sum) := by
    intro indices
    induction indices with
    | nil => exact fun sum _ ↦ mild_ok sum
    | cons p rest ih =>
      intro sum hlt
      rw [List.forall_mem_cons] at hlt
      rw [List.foldlM_cons]
      refine mild_bind ?_ fun next _ ↦ ih next hlt.2
      exact mild_bind (hleft p hlt.1) fun x _ ↦ mild_bind (hright p hlt.1) fun y _ ↦ mild_ok _
  exact hfold (List.range count) 0 fun p ↦ List.mem_range.1

private theorem mul_add_lt {rows columns i j : Nat} (hi : i < rows) (hj : j < columns) :
    i * columns + j < rows * columns :=
  calc i * columns + j < i * columns + columns := Nat.add_lt_add_left hj _
    _ = (i + 1) * columns := (Nat.succ_mul i columns).symm
    _ ≤ rows * columns := Nat.mul_le_mul_right _ hi

/-- The elements of an operand that a product asks for are inside it. -/
theorem lhsIndex_lt {transposed : Bool} {m k i p : Nat} (hi : i < m) (hp : p < k) :
    lhsIndex transposed m k i p < m * k := by
  unfold lhsIndex
  split
  · rw [Nat.mul_comm m k]
    exact mul_add_lt hp hi
  · exact mul_add_lt hi hp

theorem rhsIndex_lt {transposed : Bool} {k n p j : Nat} (hp : p < k) (hj : j < n) :
    rhsIndex transposed k n p j < k * n := lhsIndex_lt hp hj

/-- A matrix product breaks down at nothing but the products that it forms. -/
theorem mild_product [Add α] [Mul α] [Zero α] {spec : MatMulSpec} {m k n : Nat}
    (hmk : m * k < Size.wordCount) (hkn : k * n < Size.wordCount)
    (hmn : m * n < Size.wordCount) : Mild (product spec m k n lhs rhs out).ended := by
  refine mild_fillAfter ?_ fun hcheck index hindex ↦ ?_
  · exact mild_bind (mild_times hmk) fun _ _ ↦ mild_bind mild_checkLength fun _ _ ↦
      mild_bind (mild_times hkn) fun _ _ ↦ mild_bind mild_checkLength fun _ _ ↦
      mild_bind (mild_times hmn) fun _ _ ↦ mild_checkLength
  · simp only [times_of_lt hmk, times_of_lt hkn, times_of_lt hmn, ok_bind] at hcheck
    obtain ⟨_, hlhs, hcheck⟩ := bind_eq_ok_iff.1 hcheck
    obtain ⟨_, hrhs, hout⟩ := bind_eq_ok_iff.1 hcheck
    rw [← eq_of_checkLength hout] at hindex
    have hrow : index / n < m := Nat.div_lt_of_lt_mul (Nat.mul_comm m n ▸ hindex)
    have hcolumn : index % n < n := Nat.mod_lt _ (Nat.pos_of_lt_mul_left hindex)
    refine mild_dot (fun p hp ↦ mild_element ?_) fun p hp ↦ mild_element ?_
    · exact eq_of_checkLength hlhs ▸ lhsIndex_lt hrow hp
    · exact eq_of_checkLength hrhs ▸ rhsIndex_lt hp hcolumn

end

variable {lhs rhs input out : TensorView}

theorem mild_mismatch {what : String} {data : TensorData} :
    Mild (Outcome.refuse (mismatch what) data).ended := mild_refused rfl

theorem mild_elementwiseBinary (op : BinaryOp) (lhs rhs out : TensorView) :
    Mild (elementwiseBinary op lhs rhs out).ended := by
  unfold elementwiseBinary
  split
  · exact mild_zipWith nofun
  · exact mild_zipWith isCorrupting_of_applyI32
  · exact mild_zipWith isCorrupting_of_applyU8
  · exact mild_mismatch

theorem mild_elementwiseUnary (op : UnaryOp) (input out : TensorView) :
    Mild (elementwiseUnary op input out).ended := by
  unfold elementwiseUnary
  split
  · exact mild_mapElements nofun
  · exact mild_mapElements isCorrupting_of_unaryI32
  · exact mild_mapElements isCorrupting_of_unaryU8
  · exact mild_mismatch

theorem mild_reduce (kind : ReduceKind)
    (h : out.data.size * innerExtent input.dims < Size.wordCount) :
    Mild (reduce kind input out).ended := by
  obtain ⟨dims, values⟩ := input
  obtain ⟨outDims, old⟩ := out
  unfold reduce
  simp only
  split
  · exact mild_reduceRows h
  · exact mild_reduceRows h
  · exact mild_reduceRows h
  · exact mild_mismatch

theorem mild_copy (input out : TensorView) : Mild (copy input out).ended := by
  unfold copy
  split
  · exact mild_copyArray
  · exact mild_copyArray
  · exact mild_copyArray
  · exact mild_mismatch

theorem mild_matMul {spec : MatMulSpec} {m k n : Extent}
    (hextents : spec.extents lhs.dims rhs.dims = .ok (m, k, n))
    (hmk : m.toNat * k.toNat < Size.wordCount) (hkn : k.toNat * n.toNat < Size.wordCount)
    (hmn : m.toNat * n.toNat < Size.wordCount) : Mild (matMul spec lhs rhs out).ended := by
  obtain ⟨lhsDims, left⟩ := lhs
  obtain ⟨rhsDims, right⟩ := rhs
  obtain ⟨outDims, old⟩ := out
  unfold matMul
  simp only at hextents
  simp only [hextents]
  split
  · exact mild_product hmk hkn hmn
  · exact mild_product hmk hkn hmn
  · exact mild_mismatch

end Kernel

namespace CatalogueImplementation

open Kernel

variable {node : Node} {declared : List Layout} {shapes : ConcreteShapes}
  {inputs : List TensorView} {out : TensorView}

/-- On arguments that fit the extents of a run, the reference kernel of a node fails mildly. -/
theorem mild_run (hargs : Arguments node declared shapes inputs out) :
    Mild (ReferenceImplementation.run (.ofOp node.op) inputs out).ended := by
  have hothers : ∀ kernel : RefKernel, Mild (Outcome.refuse
      (.execution s!"{kernel.text} got {inputs.length} inputs") out.data).ended :=
    fun _ ↦ mild_refused rfl
  cases hop : node.op with
  | binary op =>
    obtain ⟨lhs, rhs, rfl, _⟩ := hargs.binary hop
    exact mild_elementwiseBinary op lhs rhs out
  | unary op =>
    obtain ⟨input, rfl, _⟩ := hargs.unary hop
    exact mild_elementwiseUnary op input out
  | matMul spec =>
    obtain ⟨lhs, rhs, m, k, n, rfl, hextents, hmk, hkn, hmn⟩ := hargs.matMul hop
    exact mild_matMul hextents hmk hkn hmn
  | reduce spec =>
    obtain ⟨input, rfl, _, hrows⟩ := hargs.reduce hop
    exact mild_reduce spec.kind hrows
  | reorder format =>
    match inputs with
    | [input] => exact mild_copy input out
    | [] => exact hothers .reorder
    | _ :: _ :: _ => exact hothers .reorder
  | parameter =>
    match inputs with
    | [] => exact mild_ok ()
    | _ :: _ => exact hothers .parameter
  | constant tensor =>
    match inputs with
    | [] => exact mild_ok ()
    | _ :: _ => exact hothers .constant
  | reshape target =>
    match inputs with
    | [_] => exact mild_ok ()
    | [] => exact hothers .reshape
    | _ :: _ :: _ => exact hothers .reshape

end CatalogueImplementation

end TensorEngine
