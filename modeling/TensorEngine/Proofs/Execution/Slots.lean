import TensorEngine.Catalogue.Reference
import TensorEngine.Execution
import TensorEngine.Proofs.Memory.Places
import TensorEngine.Proofs.Memory.Storage

/-!
# Executions on slots

What an execution does to the slots, told without instances: a visit derives extents, makes room
in the slot of its place and leaves there what the reference kernel computes.  Which implementation
an instance is bound to, whether its form came from a cache and what it went through before make no
difference to this.
-/

namespace TensorEngine

open PrimitiveInstance

/-- The arguments of a run: the operands, and the result with its old elements. -/
def MemoryPool.arguments (pool : MemoryPool) (inputs : List Nat) (slot : Nat)
    (shapes : ConcreteShapes) : Except BackendError (List TensorView × TensorView) := do
  let operands ← inputs.mapM fun slot ↦ (pool.read slot).mapError slotError
  let result ← (pool.read slot).mapError slotError
  let views ← (operands.zip shapes.inputs).mapM fun (data, dims) ↦ viewOf data dims
  let some dims := shapes.outputs.head?
    | throw (.execution "missing output extents")
  return (views, ← viewOf result dims)

namespace Node

/-- A failed run of a node as a failure of the engine. -/
def failure (node : Node) (shapes : List Dims) (source : BackendError) : RuntimeError :=
  .executionFailure node.id node.kind shapes source

/-- Puts a bound value to the front of a slot. -/
def fillBinding (node : Node) (slot : Nat) (bindings : Bindings) (pool : MemoryPool) :
    Except RuntimeError Unit × MemoryPool :=
  match bindings node.id with
  | none => (.error (.missingBinding node.id), pool)
  | some binding =>
    match pool.ensureCapacity slot binding.size with
    | .error error => (.error error.toRuntime, pool)
    | .ok (_, pool) =>
      match pool.read slot with
      | .error error => (.error error.toRuntime, pool)
      | .ok data =>
        match data.copyFrom binding.data with
        | .error error => (.error (node.failure [binding.dims] (.ofAccess error)), pool)
        | .ok data => (.ok (), pool.set slot data)

def runReference (node : Node) (inputs : List Nat) (slot : Nat) (shapes : ConcreteShapes)
    (pool : MemoryPool) : Except RuntimeError Unit × MemoryPool :=
  match pool.arguments inputs slot shapes with
  | .error error => (.error (node.failure shapes.all error), pool)
  | .ok (views, out) =>
    let outcome := ReferenceImplementation.run (.ofOp node.op) views out
    ((outcome.ended.mapError (faultError (ReferenceImplementation.nameOf node.kind))).mapError
      (node.failure shapes.all), writeBack pool slot [outcome.out])

def fillComputed (node : Node) (inputs : List Nat) (slot : Nat) (shapes : ConcreteShapes)
    (pool : MemoryPool) : Except RuntimeError Unit × MemoryPool :=
  let dims := shapes.outputs.headD []
  match elementCount? dims with
  | none => (.error (.shapeOutOfRange node.id node.output.shape dims), pool)
  | some count =>
    match pool.ensureCapacity slot count with
    | .error error => (.error error.toRuntime, pool)
    | .ok (_, pool) => node.runReference inputs slot shapes pool

/-- Fills the slot of a node in the way that its kind asks for. -/
def fillSlot (node : Node) (inputs : List Nat) (slot : Nat) (shapes : ConcreteShapes)
    (bindings : Bindings) (pool : MemoryPool) : Except RuntimeError Unit × MemoryPool :=
  match node.kind with
  | .parameter => node.fillBinding slot bindings pool
  | .constant | .reshape => (.ok (), pool)
  | .elementwiseBinary | .elementwiseUnary | .matMul | .reduce | .reorder =>
    node.fillComputed inputs slot shapes pool

end Node

/-- What the places of a graph share during an execution. -/
structure Slots where
  pool : MemoryPool
  /-- The extents of the results of the places visited so far. -/
  extents : List (Option Dims)

namespace Slots

variable {ι : Type}

def visit (context : ExecutionContext ι) (plan : MemoryPlan) (slots : Slots) (p : Nat) :
    Except RuntimeError Unit × Slots :=
  match context.graph.nodes[p]? with
  | none => (.ok (), slots)
  | some node =>
    match context.concreteShapes node slots.extents with
    | .error error => (.error error, slots)
    | .ok shapes =>
      match node.fillSlot (plan.operandPlaces context.graph node) (plan.place p) shapes
          context.bindings slots.pool with
      | (.error error, pool) => (.error error, { slots with pool })
      | (.ok (), pool) => (.ok (), ⟨pool, slots.extents.set p shapes.outputs.head?⟩)

/-- Visits places in order, up to the first failure. -/
def visitAll (context : ExecutionContext ι) (plan : MemoryPlan) (slots : Slots) :
    List Nat → Except RuntimeError Unit × Slots
  | [] => (.ok (), slots)
  | p :: rest =>
    match slots.visit context plan p with
    | (.ok (), slots) => slots.visitAll context plan rest
    | (.error error, slots) => (.error error, slots)

/-- Which implementations are at hand plays no part in what happens to slots. -/
theorem visitAll_congr (context context' : ExecutionContext ι) {plan : MemoryPlan}
    (hgraph : context.graph = context'.graph) (hbindings : context.bindings = context'.bindings)
    {slots : Slots} {order : List Nat} :
    slots.visitAll context plan order = slots.visitAll context' plan order := by
  obtain ⟨graph, specialize, bindings⟩ := context
  obtain ⟨graph', specialize', bindings'⟩ := context'
  obtain rfl : graph = graph' := hgraph
  obtain rfl : bindings = bindings' := hbindings
  have hvisit : ∀ (slots : Slots) (p : Nat), slots.visit ⟨graph, specialize, bindings⟩ plan p =
      slots.visit ⟨graph, specialize', bindings⟩ plan p := fun _ _ ↦ rfl
  induction order generalizing slots with
  | nil => rfl
  | cons p order ih =>
    simp only [visitAll, hvisit]
    split
    · exact ih
    · rfl

end Slots

def ExecutionState.slots {ι ω : Type} (state : ExecutionState ι ω) : Slots :=
  ⟨state.pool, state.extents⟩

@[simp] theorem ExecutionState.pool_slots {ι ω : Type} (state : ExecutionState ι ω) :
    state.slots.pool = state.pool := rfl

@[simp] theorem ExecutionState.extents_slots {ι ω : Type} (state : ExecutionState ι ω) :
    state.slots.extents = state.extents := rfl

/-! ## Extents -/

namespace ExecutionContext

variable {ι : Type} {context : ExecutionContext ι} {node : Node} {p : Nat}
  {extents : List (Option Dims)} {shapes : ConcreteShapes}

/-- The operands' extents are those of their producers. -/
theorem operandDims_eq_ok (hnode : context.graph.nodes[p]? = some node) {dims : List Dims} :
    context.operandDims node extents = .ok dims ↔
      List.Forall₂ (fun q dims ↦ extents[q]?.join = some dims) (context.graph.producers node)
        dims := by
  have hproducers := Graph.forall₂_producers hnode
  rw [operandDims, mapM_eq_ok_iff]
  generalize context.graph.producers node = producers at hproducers
  generalize node.inputs = inputs at hproducers
  induction hproducers generalizing dims with
  | nil => simp
  | cons hq _ ih =>
    simp only [List.forall₂_cons_left_iff, ih, hq, Option.bind_some]
    refine exists_congr fun first ↦ exists_congr fun rest ↦ and_congr_left fun _ ↦ ?_
    split <;> simp_all

/-- The extents of a visit. -/
theorem concreteShapes_eq_ok_iff (hnode : context.graph.nodes[p]? = some node) :
    context.concreteShapes node extents = .ok shapes ↔
      ∃ inputs dims, shapes = ⟨inputs, [dims]⟩ ∧
        List.Forall₂ (fun q dims ↦ extents[q]?.join = some dims) (context.graph.producers node)
          inputs ∧
        context.resultDims node inputs = .ok dims ∧ node.output.shape.accepts dims = true := by
  unfold concreteShapes
  simp only [bind_eq_ok_iff, operandDims_eq_ok hnode]
  constructor
  · rintro ⟨inputs, hinputs, dims, hdims, h⟩
    split at h
    · rename_i haccepts
      exact ⟨inputs, dims, (Except.ok.inj h).symm, hinputs, hdims, haccepts⟩
    · cases h
  · rintro ⟨inputs, dims, rfl, hinputs, hdims, haccepts⟩
    exact ⟨inputs, hinputs, dims, hdims, by rw [if_pos haccepts]; rfl⟩

theorem resultDims_eq_ok_iff {inputs : List Dims} {dims : Dims} (hkind : node.kind ≠ .parameter) :
    context.resultDims node inputs = .ok dims ↔ node.op.outputDims inputs = .ok dims := by
  rw [resultDims, if_neg hkind, mapError_eq_ok_iff]

end ExecutionContext

/-! ## Arguments -/

section

variable {pool : MemoryPool} {inputs : List Nat} {slot : Nat} {data : TensorData} {dims : Dims}
  {inputDims : List Dims} {view out : TensorView} {views : List TensorView}

theorem viewOf_eq_ok_iff : viewOf data dims = .ok view ↔
    ∃ count, elementCount? dims = some count ∧ count ≤ data.size ∧
      view = ⟨dims, data.take count⟩ := by
  unfold viewOf
  cases elementCount? dims with
  | none => simp
  | some count =>
    simp only [bind_eq_ok_iff, mapError_eq_ok_iff, TensorData.view_eq_ok_iff, pure_eq_ok,
      Except.ok.injEq, Option.some.injEq]
    constructor
    · rintro ⟨_, ⟨hle, rfl⟩, rfl⟩
      exact ⟨count, rfl, hle, rfl⟩
    · rintro ⟨_, rfl, hle, rfl⟩
      exact ⟨_, ⟨hle, rfl⟩, rfl⟩

theorem MemoryPool.arguments_eq_ok_iff :
    pool.arguments inputs slot ⟨inputDims, [dims]⟩ = .ok (views, out) ↔
      ∃ operands data, List.Forall₂ (fun s d ↦ pool.slots[s]? = some d) inputs operands ∧
        pool.slots[slot]? = some data ∧
        List.Forall₂ (fun pair view ↦ viewOf pair.1 pair.2 = .ok view) (operands.zip inputDims)
          views ∧ viewOf data dims = .ok out := by
  simp only [MemoryPool.arguments, bind_eq_ok_iff, mapM_eq_ok_iff, mapError_eq_ok_iff,
    MemoryPool.read_eq_ok_iff, List.head?_cons, pure_eq_ok, Except.ok.injEq, Prod.mk.injEq]
  constructor
  · rintro ⟨operands, hoperands, data, hdata, _, hviews, _, hout, rfl, rfl⟩
    exact ⟨operands, data, hoperands, hdata, hviews, hout⟩
  · rintro ⟨operands, data, hoperands, hdata, hviews, hout⟩
    exact ⟨operands, hoperands, data, hdata, views, hviews, out, hout, rfl, rfl⟩

/-- The operands of a run have the extents of the run, and as many elements as these need. -/
theorem forall₂_viewOf {operands : List TensorData} (hlen : operands.length = inputDims.length)
    (h : List.Forall₂ (fun pair view ↦ viewOf pair.1 pair.2 = .ok view) (operands.zip inputDims)
      views) :
    views.map TensorView.dims = inputDims ∧ List.Forall₂ (fun data view ↦
      elementCount? view.dims = some view.data.size ∧ view.data.dtype = data.dtype)
      operands views := by
  induction operands generalizing inputDims views with
  | nil =>
    obtain rfl := List.length_eq_zero_iff.1 hlen.symm
    rw [List.zip_nil_left, List.forall₂_nil_left_iff] at h
    exact h ▸ ⟨rfl, .nil⟩
  | cons data operands ih =>
    obtain ⟨dims, rest, rfl⟩ := List.exists_cons_of_length_eq_add_one hlen.symm
    rw [List.zip_cons_cons, List.forall₂_cons_left_iff] at h
    obtain ⟨view, others, hview, hrest, rfl⟩ := h
    obtain ⟨count, hcount, hle, rfl⟩ := viewOf_eq_ok_iff.1 hview
    obtain ⟨hdims, hsized⟩ := ih (Nat.succ.inj hlen) hrest
    refine ⟨by rw [List.map_cons, hdims], .cons ⟨?_, TensorData.dtype_take⟩ hsized⟩
    rw [hcount, TensorData.size_take, Nat.min_eq_left hle]

end

/-! ## Which slots change -/

namespace MemoryPool

variable {pool pool' pool'' : MemoryPool} {plan : MemoryPlan} {slot s n : Nat}

/-- The slots have the element types of the plan. -/
def Typed (pool : MemoryPool) (plan : MemoryPlan) : Prop :=
  pool.slots.map TensorData.dtype = plan.slots.map BufferSlot.dtype

/-- Only one slot has other elements, and all keep their types. -/
structure Touches (pool : MemoryPool) (slot : Nat) (pool' : MemoryPool) : Prop where
  frame : ∀ s, s ≠ slot → pool'.slots[s]? = pool.slots[s]?
  dtypes : pool'.slots.map TensorData.dtype = pool.slots.map TensorData.dtype

theorem Touches.refl (pool : MemoryPool) (slot : Nat) : pool.Touches slot pool :=
  ⟨fun _ _ ↦ rfl, rfl⟩

theorem Touches.trans (h : pool.Touches slot pool') (h' : pool'.Touches slot pool'') :
    pool.Touches slot pool'' :=
  ⟨fun s hs ↦ (h'.frame s hs).trans (h.frame s hs), h'.dtypes.trans h.dtypes⟩

theorem Touches.typed (h : pool.Touches slot pool') (htyped : pool.Typed plan) :
    pool'.Typed plan := h.dtypes.trans htyped

/-- Elements of the same type in place of others. -/
theorem touches_of_set {data data' : TensorData} (hslot : pool.slots[slot]? = some data)
    (hdtype : data'.dtype = data.dtype) (hset : pool'.slots = pool.slots.set slot data') :
    pool.Touches slot pool' := by
  refine ⟨fun s hs ↦ by rw [hset, List.getElem?_set_ne (Ne.symm hs)], ?_⟩
  obtain ⟨hlt, hget⟩ := List.getElem?_eq_some_iff.1 hslot
  rw [hset, List.map_set, hdtype, ← hget]
  exact List.ext_getElem (by simp) fun i _ _ ↦ by
    rcases eq_or_ne slot i with rfl | hi
    · simp
    · simp [List.getElem_set_ne hi]

theorem touches_ensureCapacity {grew : Bool} (h : pool.ensureCapacity slot n = .ok (grew, pool')) :
    pool.Touches slot pool' := by
  obtain ⟨data, data', hslot, hset, hdtype, _⟩ := ensureCapacity_eq_ok h
  exact touches_of_set hslot hdtype hset

theorem touches_writeBack {outputs : List TensorData} :
    pool.Touches slot (writeBack pool slot outputs) := by
  unfold writeBack
  split
  · rename_i hslot _
    exact touches_of_set hslot TensorData.dtype_overwrite rfl
  · exact .refl pool slot

/-- The slot of a place holds elements of the declared type. -/
theorem Typed.exists_data {graph : Graph} {streams p : Nat} {node : Node} (h : pool.Typed plan)
    (hsafe : plan.Safe graph streams) (hnode : graph.nodes[p]? = some node) :
    ∃ data, pool.slots[plan.place p]? = some data ∧ data.dtype = node.output.dtype := by
  obtain ⟨slot, hslot, hdtype⟩ := hsafe.slot_place hnode
  have hmap : (pool.slots.map TensorData.dtype)[plan.place p]? = some slot.dtype := by
    rw [h, List.getElem?_map, hslot, Option.map_some]
  rw [List.getElem?_map, Option.map_eq_some_iff] at hmap
  obtain ⟨data, hdata, hsame⟩ := hmap
  exact ⟨data, hdata, hsame.trans hdtype⟩

/-- Once there is room in the slot of a place, it holds enough elements of the declared type. -/
theorem Typed.exists_room {graph : Graph} {streams p : Nat} {node : Node} {grew : Bool}
    (htyped : pool.Typed plan) (hsafe : plan.Safe graph streams)
    (hnode : graph.nodes[p]? = some node)
    (h : pool.ensureCapacity (plan.place p) n = .ok (grew, pool')) :
    ∃ data, pool'.slots[plan.place p]? = some data ∧ data.dtype = node.output.dtype ∧
      n ≤ data.size := by
  obtain ⟨old, data, hold, hslots, hdtype, hsize, _⟩ := ensureCapacity_eq_ok h
  obtain ⟨old', hold', htype⟩ := htyped.exists_data hsafe hnode
  obtain rfl := Option.some.inj (hold.symm.trans hold')
  refine ⟨data, ?_, hdtype.trans htype, hsize ▸ Nat.le_max_right _ _⟩
  rw [hslots, List.getElem?_set_self (List.getElem?_eq_some_iff.1 hold).1]

end MemoryPool

namespace Node

variable {node : Node} {inputs : List Nat} {slot : Nat} {shapes : ConcreteShapes}
  {bindings : Bindings} {pool : MemoryPool}

open MemoryPool

theorem touches_fillBinding : pool.Touches slot (node.fillBinding slot bindings pool).2 := by
  unfold fillBinding
  split
  · exact .refl pool slot
  · split
    · exact .refl pool slot
    · rename_i hroom
      refine (touches_ensureCapacity hroom).trans ?_
      split
      · exact .refl _ slot
      · rename_i hread
        split
        · exact .refl _ slot
        · rename_i hcopy
          obtain ⟨_, _, rfl⟩ := TensorData.copyFrom_eq_ok_iff.1 hcopy
          exact touches_of_set (read_eq_ok_iff.1 hread) TensorData.dtype_overwrite rfl

theorem touches_fillComputed :
    pool.Touches slot (node.fillComputed inputs slot shapes pool).2 := by
  unfold fillComputed
  simp only
  split
  · exact .refl pool slot
  · split
    · exact .refl pool slot
    · rename_i hroom
      refine (touches_ensureCapacity hroom).trans ?_
      unfold runReference
      split
      · exact .refl _ slot
      · exact touches_writeBack

/-- A visit touches no slot but that of its place. -/
theorem touches_fillSlot :
    pool.Touches slot (node.fillSlot inputs slot shapes bindings pool).2 := by
  unfold fillSlot
  split
  case h_1 => exact touches_fillBinding
  case h_2 | h_3 => exact .refl pool slot
  all_goals exact touches_fillComputed

end Node

/-! ## Constants -/

/-- The constants in front of a place stand in their slots. -/
def MemoryPool.HoldsConstants (pool : MemoryPool) (graph : Graph) (plan : MemoryPlan) (k : Nat) :
    Prop :=
  ∀ (p : Nat) (node : Node) (tensor : HostTensor), p < k → graph.nodes[p]? = some node →
    node.op = .constant tensor →
      ∃ data, pool.slots[plan.place p]? = some data ∧ data.Begins tensor.data

section

variable {graph : Graph} {plan : MemoryPlan} {streams p k : Nat} {node : Node}
  {pool pool' : MemoryPool}

/-- Filling the slot of another place leaves the constants alone. -/
theorem MemoryPool.HoldsConstants.touches (h : pool.HoldsConstants graph plan k)
    (hsafe : plan.Safe graph streams) (hnode : graph.nodes[p]? = some node)
    (hkind : node.kind ≠ .constant) (hshare : node.kind ≠ .reshape)
    (htouches : pool.Touches (plan.place p) pool') : pool'.HoldsConstants graph plan k := by
  intro q other tensor hq hother hop
  have hconstant : other.kind = .constant := by
    rw [Node.kind, hop]
    rfl
  have hne : plan.place p ≠ plan.place q := by
    refine hsafe.place_ne (.start hother ?_) ⟨other, hother, .inr (.inl hconstant)⟩
      (.start hnode hshare) ?_
    · rw [hconstant]
      nofun
    · rintro rfl
      rw [hnode, Option.some.injEq] at hother
      exact hkind (hother ▸ hconstant)
  rw [htouches.frame _ hne.symm]
  exact h q other tensor hq hother hop

namespace Slots

variable {ι : Type} {context : ExecutionContext ι} {slots : Slots}

/-- What holds of the slots between executions: they have the planned types, and the constants are
in place. -/
structure Kept (graph : Graph) (plan : MemoryPlan) (slots : Slots) : Prop where
  typed : slots.pool.Typed plan
  constants : slots.pool.HoldsConstants graph plan graph.size

/-- Whatever fills the slot of a place keeps types and constants, as long as it leaves constants and
reshapes alone. -/
theorem Kept.touches (h : slots.Kept graph plan) (hsafe : plan.Safe graph streams)
    (hnode : graph.nodes[p]? = some node) (htouches : slots.pool.Touches (plan.place p) pool')
    (hidle : node.kind = .constant ∨ node.kind = .reshape → pool' = slots.pool)
    (extents : List (Option Dims)) : Kept graph plan ⟨pool', extents⟩ := by
  refine ⟨htouches.typed h.typed, ?_⟩
  by_cases hkind : node.kind = .constant ∨ node.kind = .reshape
  · exact hidle hkind ▸ h.constants
  · exact h.constants.touches hsafe hnode (fun h ↦ hkind (.inl h)) (fun h ↦ hkind (.inr h)) htouches

/-- Filling the slot of a place keeps types and constants. -/
theorem kept_fillSlot (inputs : List Nat) (shapes : ConcreteShapes) (bindings : Bindings)
    (hsafe : plan.Safe graph streams) (h : slots.Kept graph plan)
    (hnode : graph.nodes[p]? = some node) (extents : List (Option Dims)) :
    Kept graph plan
      ⟨(node.fillSlot inputs (plan.place p) shapes bindings slots.pool).2, extents⟩ := by
  refine h.touches hsafe hnode Node.touches_fillSlot (fun hidle ↦ ?_) extents
  unfold Node.fillSlot
  rcases hidle with hkind | hkind <;> rw [hkind]

/-- A visit keeps types and constants. -/
theorem kept_visit (context : ExecutionContext ι) (hsafe : plan.Safe context.graph streams)
    (h : slots.Kept context.graph plan) (p : Nat) :
    (slots.visit context plan p).2.Kept context.graph plan := by
  unfold visit
  split
  · exact h
  · rename_i node hnode
    split
    · exact h
    · rename_i shapes _
      have hkept := kept_fillSlot (plan.operandPlaces context.graph node) shapes context.bindings
        hsafe h hnode
      split
      · rename_i hfill
        rw [hfill] at hkept
        exact hkept _
      · rename_i hfill
        rw [hfill] at hkept
        exact hkept _

end Slots

end

end TensorEngine
