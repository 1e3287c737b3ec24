import TensorEngine.Catalogue.Reference
import TensorEngine.Proofs.Memory.Storage

/-!
# What a kernel depends on

A kernel is handed the old elements of its result.  They do not matter: how a run ends depends on
their type and number only, and when it succeeds every element has been replaced.
-/

namespace TensorEngine.Kernel

variable {α β : Type}

/-- Two runs end alike, and leave the same elements when they succeed. -/
structure Outcome.Agrees (a b : Outcome α) : Prop where
  ended_eq : a.ended = b.ended
  out_eq : a.ended = .ok () → a.out = b.out

namespace Outcome

variable {a b : Outcome α} {f : α → β}

theorem Agrees.map (h : a.Agrees b) : (a.map f).Agrees (b.map f) :=
  ⟨h.ended_eq, fun hok ↦ congrArg f (h.out_eq hok)⟩

theorem agrees_refuse {error : BackendError} {out out' : α} :
    (refuse error out).Agrees (refuse error out') := ⟨rfl, nofun⟩

end Outcome

/-! ## Filling a result -/

variable {compute : Nat → Except Fault α} {check : Except Fault Unit} {index : Nat}
  {out out' : Array α}

theorem size_fillFrom : (fillFrom compute index out).out.size = out.size := by
  fun_induction fillFrom compute index out with
  | case1 index out h value hvalue ih => rw [ih, Array.size_set]
  | case2 => rfl
  | case3 => rfl

theorem size_fillAfter : (fillAfter check compute out).out.size = out.size := by
  unfold fillAfter
  split
  · exact size_fillFrom
  · rfl

/-- Elements that are still to be computed do not matter. -/
theorem fillFrom_agrees (hsize : out.size = out'.size)
    (hfront : ∀ j < index, out[j]? = out'[j]?) :
    (fillFrom compute index out).Agrees (fillFrom compute index out') := by
  fun_induction fillFrom compute index out generalizing out' with
  | case1 index out h value hvalue ih =>
    have h' : index < out'.size := hsize ▸ h
    have hstep : fillFrom compute index out' =
        fillFrom compute (index + 1) (out'.set index value h') := by
      rw [fillFrom, dif_pos h', hvalue]
    rw [hstep]
    refine ih (by simp [hsize]) fun j hj ↦ ?_
    by_cases hji : index = j
    · subst hji
      rw [Array.getElem?_set_self h, Array.getElem?_set_self h']
    · rw [Array.getElem?_set_ne h hji, Array.getElem?_set_ne h' hji]
      exact hfront j (by omega)
  | case2 index out h fault hfault =>
    rw [fillFrom, dif_pos (hsize ▸ h), hfault]
    exact ⟨rfl, nofun⟩
  | case3 index out h =>
    rw [fillFrom, dif_neg (hsize ▸ h)]
    refine ⟨rfl, fun _ ↦ Array.ext_getElem? fun j ↦ ?_⟩
    show out[j]? = out'[j]?
    by_cases hj : j < index
    · exact hfront j hj
    · rw [Array.getElem?_eq_none (by omega), Array.getElem?_eq_none (by omega)]

theorem fillAfter_agrees (hsize : out.size = out'.size) :
    (fillAfter check compute out).Agrees (fillAfter check compute out') := by
  unfold fillAfter
  split
  · exact fillFrom_agrees hsize fun j hj ↦ absurd hj (Nat.not_lt_zero j)
  · exact ⟨rfl, nofun⟩

/-- A loop in which every element can be computed succeeds, with these elements. -/
theorem fillFrom_eq_ok (index : Nat) {values : Array α} (hsize : values.size = out.size)
    (h : ∀ (j : Nat) (hj : j < values.size), compute j = .ok values[j]) :
    (fillFrom compute index out).ended = .ok () ∧
      (∀ j < index, (fillFrom compute index out).out[j]? = out[j]?) ∧
      ∀ j, index ≤ j → (fillFrom compute index out).out[j]? = values[j]? := by
  fun_induction fillFrom compute index out with
  | case1 index out hlt value hvalue ih =>
    rw [h index (hsize ▸ hlt)] at hvalue
    obtain rfl := Except.ok.inj hvalue
    obtain ⟨hended, hfront, hrest⟩ := ih (by simpa using hsize)
    refine ⟨hended, fun j hj ↦ ?_, fun j hle ↦ ?_⟩
    · rw [hfront j (by omega), Array.getElem?_set_ne hlt (by omega)]
    · rcases Nat.eq_or_lt_of_le hle with rfl | hgt
      · rw [hfront index (by omega), Array.getElem?_set_self hlt, Array.getElem?_eq_getElem]
      · exact hrest j hgt
  | case2 index out hlt fault hfault =>
    rw [h index (hsize ▸ hlt)] at hfault
    cases hfault
  | case3 index out hge =>
    refine ⟨rfl, fun j _ ↦ rfl, fun j hle ↦ ?_⟩
    show out[j]? = values[j]?
    rw [Array.getElem?_eq_none (by omega), Array.getElem?_eq_none (by omega)]

/-- A result whose elements can all be computed. -/
theorem fillAfter_eq_ok {values : Array α} (hcheck : check = .ok ())
    (hsize : values.size = out.size)
    (h : ∀ (j : Nat) (hj : j < values.size), compute j = .ok values[j]) :
    fillAfter check compute out = ⟨.ok (), values⟩ := by
  obtain ⟨hended, _, hrest⟩ := fillFrom_eq_ok 0 hsize h
  have hout : (fillFrom compute 0 out).out = values :=
    Array.ext_getElem? fun j ↦ hrest j (Nat.zero_le j)
  subst hcheck
  show fillFrom compute 0 out = _
  rw [← hout, ← hended]

/-! ## Regular loops -/

/-- A loop that replaces every element of its result. -/
structure RegularLoop (loop : Array α → Outcome (Array α)) : Prop where
  /-- The number of elements stays. -/
  size_eq : ∀ out, (loop out).out.size = out.size
  /-- The old elements do not matter. -/
  agrees : ∀ {out out'}, out.size = out'.size → (loop out).Agrees (loop out')

/-- A loop that depends on the number of elements of its result alone. -/
theorem regularLoop_fillAfter (check : Nat → Except Fault Unit)
    (compute : Nat → Except Fault α) :
    RegularLoop fun out ↦ fillAfter (check out.size) compute out where
  size_eq _ := size_fillAfter
  agrees h := by
    rw [h]
    exact fillAfter_agrees h

theorem regularLoop_refuse {error : BackendError} :
    RegularLoop fun out : Array α ↦ Outcome.refuse error out :=
  ⟨fun _ ↦ rfl, fun _ ↦ Outcome.agrees_refuse⟩

theorem regularLoop_product [Add α] [Mul α] [Zero α] {spec : MatMulSpec} {m k n : Nat}
    {a b : Array α} : RegularLoop (product spec m k n a b) :=
  regularLoop_fillAfter
    (fun size ↦ do
      checkLength "matmul" (← times m k) a.size
      checkLength "matmul" (← times k n) b.size
      checkLength "matmul" (← times m n) size) _

/-! ## Regular kernels -/

/-- A kernel, as a function of the old elements of its result, that replaces all of them. -/
structure Regular (kernel : TensorData → Outcome TensorData) : Prop where
  dtype_eq : ∀ data, (kernel data).out.dtype = data.dtype
  /-- The number of elements stays. -/
  size_eq : ∀ data, (kernel data).out.size = data.size
  /-- The old elements do not matter. -/
  agrees : ∀ data data' : TensorData, data.dtype = data'.dtype → data.size = data'.size →
    (kernel data).Agrees (kernel data')

/-- On the elements that `wrap` makes a tensor of, a kernel is a regular loop. -/
def LoopsOn (wrap : Array α → TensorData) (kernel : TensorData → Outcome TensorData) : Prop :=
  ∃ loop, RegularLoop loop ∧ ∀ out, kernel (wrap out) = (loop out).map wrap

theorem loopsOn_refuse {wrap : Array α → TensorData} {kernel : TensorData → Outcome TensorData}
    {error : BackendError} (h : ∀ out, kernel (wrap out) = .refuse error (wrap out)) :
    LoopsOn wrap kernel := ⟨_, regularLoop_refuse, h⟩

theorem regular_of_loops {kernel : TensorData → Outcome TensorData} (hf32 : LoopsOn .f32 kernel)
    (hi32 : LoopsOn .i32 kernel) (hu8 : LoopsOn .u8 kernel) : Regular kernel := by
  obtain ⟨f, hf, hfeq⟩ := hf32
  obtain ⟨i, hi, hieq⟩ := hi32
  obtain ⟨u, hu, hueq⟩ := hu8
  refine ⟨fun data ↦ ?_, fun data ↦ ?_, fun data data' hdtype hsize ↦ ?_⟩
  · cases data with
    | f32 out => rw [hfeq]; rfl
    | i32 out => rw [hieq]; rfl
    | u8 out => rw [hueq]; rfl
  · cases data with
    | f32 out => rw [hfeq]; exact hf.size_eq out
    | i32 out => rw [hieq]; exact hi.size_eq out
    | u8 out => rw [hueq]; exact hu.size_eq out
  · cases data <;> cases data' <;> simp only [TensorData.dtype, reduceCtorEq] at hdtype
    · rw [hfeq, hfeq]; exact (hf.agrees hsize).map
    · rw [hieq, hieq]; exact (hi.agrees hsize).map
    · rw [hueq, hueq]; exact (hu.agrees hsize).map

variable {lhs rhs input : TensorView} {dims : Dims}

theorem regularLoop_zipWith {apply : α → α → Except BackendError α} {a b : Array α} :
    RegularLoop (zipWith apply a b) :=
  regularLoop_fillAfter
    (fun size ↦ do
      checkLength "elementwise_binary" size a.size
      checkLength "elementwise_binary" size b.size) _

theorem regularLoop_map {apply : α → Except BackendError α} {a : Array α} :
    RegularLoop (Kernel.map apply a) :=
  regularLoop_fillAfter (fun size ↦ checkLength "elementwise_unary" size a.size) _

theorem regularLoop_reduceRows {row : Array α → α} {inner : Nat} {a : Array α} :
    RegularLoop (reduceRows row inner a) :=
  regularLoop_fillAfter
    (fun size ↦ do checkLength "reduce" (← times size inner) a.size) _

theorem regularLoop_copyArray {a : Array α} : RegularLoop (copyArray a) :=
  regularLoop_fillAfter (fun size ↦ checkLength "reorder" size a.size) _

theorem regular_elementwiseBinary {op : BinaryOp} :
    Regular fun data ↦ elementwiseBinary op lhs rhs ⟨dims, data⟩ := by
  obtain ⟨_, a⟩ := lhs
  obtain ⟨_, b⟩ := rhs
  refine regular_of_loops ?_ ?_ ?_ <;> cases a <;> cases b <;>
    first
      | exact ⟨_, regularLoop_zipWith, fun _ ↦ rfl⟩
      | exact loopsOn_refuse fun _ ↦ rfl

theorem regular_elementwiseUnary {op : UnaryOp} :
    Regular fun data ↦ elementwiseUnary op input ⟨dims, data⟩ := by
  obtain ⟨_, a⟩ := input
  refine regular_of_loops ?_ ?_ ?_ <;> cases a <;>
    first
      | exact ⟨_, regularLoop_map, fun _ ↦ rfl⟩
      | exact loopsOn_refuse fun _ ↦ rfl

theorem regular_reduce {kind : ReduceKind} :
    Regular fun data ↦ Kernel.reduce kind input ⟨dims, data⟩ := by
  obtain ⟨_, a⟩ := input
  refine regular_of_loops ?_ ?_ ?_ <;> cases a <;>
    first
      | exact ⟨_, regularLoop_reduceRows, fun _ ↦ rfl⟩
      | exact loopsOn_refuse fun _ ↦ rfl

theorem regular_copy : Regular fun data ↦ copy input ⟨dims, data⟩ := by
  obtain ⟨_, a⟩ := input
  refine regular_of_loops ?_ ?_ ?_ <;> cases a <;>
    first
      | exact ⟨_, regularLoop_copyArray, fun _ ↦ rfl⟩
      | exact loopsOn_refuse fun _ ↦ rfl

theorem regular_matMul {spec : MatMulSpec} :
    Regular fun data ↦ matMul spec lhs rhs ⟨dims, data⟩ := by
  obtain ⟨_, a⟩ := lhs
  obtain ⟨_, b⟩ := rhs
  unfold matMul
  split
  · exact regular_of_loops (loopsOn_refuse fun _ ↦ rfl) (loopsOn_refuse fun _ ↦ rfl)
      (loopsOn_refuse fun _ ↦ rfl)
  · refine regular_of_loops ?_ ?_ ?_ <;> cases a <;> cases b <;>
      first
        | exact ⟨_, regularLoop_product, fun _ ↦ rfl⟩
        | exact loopsOn_refuse fun _ ↦ rfl

end TensorEngine.Kernel

namespace TensorEngine.ReferenceImplementation

open Kernel

variable {kernel : RefKernel} {inputs : List TensorView} {dims : Dims}

theorem regular_refuse {error : BackendError} :
    Regular fun data ↦ Outcome.refuse error data :=
  ⟨fun _ ↦ rfl, fun _ ↦ rfl, fun _ _ _ _ ↦ Outcome.agrees_refuse⟩

/-- Every kernel that computes something replaces all old elements of its result. -/
theorem regular_run (hkind : kernel.kind.isExecutable = true) (inputs : List TensorView)
    (dims : Dims) :
    Regular fun data ↦ run kernel inputs ⟨dims, data⟩ := by
  unfold run
  split
  · exact regular_elementwiseBinary
  · exact regular_elementwiseUnary
  · exact regular_matMul
  · exact regular_reduce
  · exact regular_copy
  · cases hkind
  · cases hkind
  · cases hkind
  · exact regular_refuse

end TensorEngine.ReferenceImplementation
