import TensorEngine.Proofs.Execution.Naive
import TensorEngine.Proofs.Execution.Slots

/-!
# Executions on slots compute the naive values

Slots are shared by places that are not needed at the same time, and keep what earlier tenants and
earlier executions left in them.  Still every visit finds the naive values of its operands in
their slots, and leaves its own there.  The visits may come in any order in which a place follows
its operands, and in which the start of a group follows all places that touch an earlier group in
the same slot.
-/

namespace TensorEngine

open MemoryPlan PrimitiveInstance

/-- The host has no more memory, or the pool may hold no more. -/
def Refused {α : Type} (result : Except RuntimeError α) : Prop :=
  ∃ requested slot reason, result = .error (.allocationFailure requested slot reason)

variable {graph : Graph} {plan : MemoryPlan} {streams p q r : Nat} {node : Node}
  {bindings : Bindings} {pool pool' : MemoryPool} {operands : List HostTensor} {dims : Dims}
  {data : TensorData} {done : List Nat}

/-! ## Filling a slot -/

/-- What filling a slot yields: the expected elements at its front or a failure when there are
none, unless memory is refused. -/
def Yields (slot : Nat) (expected : Option TensorData)
    (answer : Except RuntimeError Unit × MemoryPool) : Prop :=
  Refused answer.1 ∨
    (∃ data stored, expected = some data ∧ answer.1 = .ok () ∧
      answer.2.slots[slot]? = some stored ∧ stored.Begins data) ∨
    (expected = none ∧ ∃ error, answer.1 = .error error)

theorem refused_toRuntime {α : Type} {error : AllocationError} :
    Refused (.error error.toRuntime : Except RuntimeError α) := ⟨_, _, _, rfl⟩

/-- The slots of operands hold their elements. -/
def MemoryPool.Holds (pool : MemoryPool) (plan : MemoryPlan) (p : Nat) (tensor : HostTensor) :
    Prop :=
  ∃ data, pool.slots[plan.place p]? = some data ∧ data.Begins tensor.data

private theorem exists_stored {producers : List Nat}
    (h : List.Forall₂ (pool.Holds plan) producers operands) : ∃ stored,
      List.Forall₂ (fun s data ↦ pool.slots[s]? = some data) (producers.map plan.place) stored ∧
      List.Forall₂ (fun data operand ↦ data.Begins operand.data) stored operands := by
  induction h with
  | nil => exact ⟨[], .nil, .nil⟩
  | cons hq _ ih =>
    obtain ⟨data, hdata, hbegins⟩ := hq
    obtain ⟨stored, hstored, hoperands⟩ := ih
    exact ⟨data :: stored, .cons hdata hstored, .cons hbegins hoperands⟩

private theorem viewOf_operands {stored : List TensorData}
    (h : List.Forall₂ (fun data operand ↦ data.Begins operand.data) stored operands)
    (hsized : ∀ operand ∈ operands, operand.WellFormed) :
    List.Forall₂ (fun pair view ↦ viewOf pair.1 pair.2 = .ok view)
      (stored.zip (operands.map HostTensor.dims)) (operands.map HostTensor.toView) := by
  induction h with
  | nil => exact .nil
  | cons hbegins _ ih =>
    rw [List.forall_mem_cons] at hsized
    refine .cons (viewOf_eq_ok_iff.2 ⟨_, hsized.1, hbegins.size_le, ?_⟩) (ih hsized.2)
    rw [HostTensor.toView, HostTensor.size, hbegins]

/-- The arguments of a run are the operands, and a slot with room for the result. -/
theorem arguments_of_holds (hoperands : List.Forall₂ (pool.Holds plan) (graph.producers node)
      operands)
    (hsized : ∀ operand ∈ operands, operand.WellFormed)
    (hdata : pool.slots[plan.place p]? = some data)
    {count : Nat} (hcount : elementCount? dims = some count) (hroom : count ≤ data.size) :
    pool.arguments (plan.operandPlaces graph node) (plan.place p)
      ⟨operands.map HostTensor.dims, [dims]⟩ =
        .ok (operands.map HostTensor.toView, ⟨dims, data.take count⟩) := by
  obtain ⟨stored, hstored, hbegins⟩ := exists_stored hoperands
  exact MemoryPool.arguments_eq_ok_iff.2 ⟨stored, data, hstored, hdata,
    viewOf_operands hbegins hsized, viewOf_eq_ok_iff.2 ⟨count, hcount, hroom, rfl⟩⟩

namespace Node

/-- A parameter's slot is filled with the bound value. -/
theorem yields_fillBinding (hsafe : plan.Safe graph streams) (hnode : graph.nodes[p]? = some node)
    (htyped : pool.Typed plan) : Yields (plan.place p)
      (((bindings node.id).map HostTensor.data).filter (·.dtype = node.output.dtype))
      (node.fillBinding (plan.place p) bindings pool) := by
  unfold fillBinding
  cases bindings node.id with
  | none => exact .inr (.inr ⟨rfl, _, rfl⟩)
  | some binding =>
    simp only [Option.map_some]
    cases hroom : pool.ensureCapacity (plan.place p) binding.size with
    | error error => exact .inl refused_toRuntime
    | ok answer =>
      obtain ⟨grew, pool'⟩ := answer
      obtain ⟨data, hdata, hdtype, hsize⟩ := htyped.exists_room hsafe hnode hroom
      simp only [MemoryPool.read_eq_ok_iff.2 hdata]
      cases hcopy : data.copyFrom binding.data with
      | error error =>
        refine .inr (.inr ⟨Option.filter_eq_none_iff.2 fun value hvalue hsame ↦ ?_, _, rfl⟩)
        obtain rfl := Option.some.inj hvalue
        have hok := TensorData.copyFrom_eq_ok_iff.2
          ⟨(of_decide_eq_true hsame).trans hdtype.symm, hsize, rfl⟩
        exact absurd (hcopy.symm.trans hok) error_ne_ok
      | ok data' =>
        obtain ⟨hsame, hfits, rfl⟩ := TensorData.copyFrom_eq_ok_iff.1 hcopy
        refine .inr (.inl ⟨binding.data, _, ?_, rfl, ?_, TensorData.begins_overwrite hsame hfits⟩)
        · rw [Option.filter_some, if_pos (decide_eq_true (hsame.trans hdtype))]
        · exact List.getElem?_set_self (List.getElem?_eq_some_iff.1 hdata).1

/-- A slot is filled with what the reference kernel computes from the operands, whatever was in it
before. -/
theorem yields_runReference (hkind : node.kind.isExecutable = true)
    (hoperands : List.Forall₂ (pool.Holds plan) (graph.producers node) operands)
    (hsized : ∀ operand ∈ operands, operand.WellFormed)
    (hdata : pool.slots[plan.place p]? = some data) (hdtype : data.dtype = node.output.dtype)
    {count : Nat} (hcount : elementCount? dims = some count) (hroom : count ≤ data.size) :
    Yields (plan.place p) (node.compute operands dims)
      (node.runReference (plan.operandPlaces graph node) (plan.place p)
        ⟨operands.map HostTensor.dims, [dims]⟩ pool) := by
  have hregular := ReferenceImplementation.regular_run (isExecutable_ofOp hkind)
    (operands.map HostTensor.toView) dims
  have hagrees := hregular.agrees (data.take count) (.zeros count node.output.dtype)
    (by rw [TensorData.dtype_take, TensorData.dtype_zeros, hdtype])
    (by rw [TensorData.size_take, TensorData.size_zeros, Nat.min_eq_left hroom])
  have hsize := hregular.size_eq (data.take count)
  have htype := hregular.dtype_eq (data.take count)
  unfold runReference compute
  rw [arguments_of_holds hoperands hsized hdata hcount hroom, hcount]
  simp only [Option.bind_eq_bind, Option.bind_some]
  generalize ReferenceImplementation.run (.ofOp node.op) (operands.map HostTensor.toView)
    ⟨dims, data.take count⟩ = outcome at hagrees hsize htype
  generalize ReferenceImplementation.run (.ofOp node.op) (operands.map HostTensor.toView)
    ⟨dims, .zeros count node.output.dtype⟩ = fresh at hagrees
  rw [← hagrees.ended_eq]
  cases hended : outcome.ended with
  | error fault => exact .inr (.inr ⟨rfl, _, rfl⟩)
  | ok _ =>
    refine .inr (.inl ⟨fresh.out, data.overwrite outcome.out, rfl, rfl, ?_, ?_⟩)
    · simp only [writeBack, hdata, List.head?_cons]
      exact List.getElem?_set_self (List.getElem?_eq_some_iff.1 hdata).1
    · rw [← hagrees.out_eq hended]
      refine TensorData.begins_overwrite (htype.trans TensorData.dtype_take) ?_
      rw [hsize, TensorData.size_take]
      exact Nat.min_le_right _ _

theorem yields_fillComputed (hsafe : plan.Safe graph streams)
    (hnode : graph.nodes[p]? = some node) (hkind : node.kind.isExecutable = true)
    (htyped : pool.Typed plan)
    (hoperands : List.Forall₂ (pool.Holds plan) (graph.producers node) operands)
    (hsized : ∀ operand ∈ operands, operand.WellFormed) :
    Yields (plan.place p) (node.compute operands dims)
      (node.fillComputed (plan.operandPlaces graph node) (plan.place p)
        ⟨operands.map HostTensor.dims, [dims]⟩ pool) := by
  simp only [fillComputed, List.headD_cons]
  cases hcount : elementCount? dims with
  | none =>
    refine .inr (.inr ⟨?_, _, rfl⟩)
    rw [compute, hcount]
    rfl
  | some count =>
    simp only
    cases hroom : pool.ensureCapacity (plan.place p) count with
    | error error => exact .inl refused_toRuntime
    | ok answer =>
      obtain ⟨grew, pool'⟩ := answer
      obtain ⟨data, hdata, hdtype, hsize⟩ := htyped.exists_room hsafe hnode hroom
      have hoperands' : List.Forall₂ (pool'.Holds plan) (graph.producers node) operands := by
        have hother : ∀ q ∈ graph.producers node, plan.place q ≠ plan.place p := by
          intro q hq hsame
          exact hsafe.place_notMem hnode hkind (hsame ▸ List.mem_map_of_mem hq)
        refine ((List.forall₂_and_left _ _).2 ⟨hother, hoperands⟩).imp ?_
        rintro q operand ⟨hne, stored, hstored, hbegins⟩
        refine ⟨stored, ?_, hbegins⟩
        rw [(MemoryPool.touches_ensureCapacity hroom).frame _ hne, hstored]
      exact yields_runReference hkind hoperands' hsized hdata hdtype hcount hsize

/-- Filling the slot of a place yields the elements of its naive value. -/
theorem yields_fillSlot (bindings : Bindings) (dims : Dims) {extents : List (Option Dims)}
    (hsafe : plan.Safe graph streams)
    (hnode : graph.nodes[p]? = some node) (hkept : Slots.Kept graph plan ⟨pool, extents⟩)
    (hoperands : List.Forall₂ (pool.Holds plan) (graph.producers node) operands)
    (hsized : ∀ operand ∈ operands, operand.WellFormed) :
    Yields (plan.place p) (node.elements bindings operands dims)
      (node.fillSlot (plan.operandPlaces graph node) (plan.place p)
        ⟨operands.map HostTensor.dims, [dims]⟩ bindings pool) := by
  rcases node.op_cases with hop | ⟨constant, hop⟩ | ⟨target, hop⟩ | hkind
  · have hkind : node.kind = .parameter := by rw [kind, hop]; rfl
    rw [fillSlot, hkind, elements, hop]
    exact yields_fillBinding hsafe hnode hkept.typed
  · have hkind : node.kind = .constant := by rw [kind, hop]; rfl
    rw [fillSlot, hkind, elements, hop]
    obtain ⟨stored, hstored, hbegins⟩ :=
      hkept.constants p node constant (Graph.lt_size hnode) hnode hop
    exact .inr (.inl ⟨constant.data, stored, rfl, rfl, hstored, hbegins⟩)
  · have hkind : node.kind = .reshape := by rw [kind, hop]; rfl
    obtain ⟨source, hsource, hedge⟩ := Graph.producers_of_reshape hnode hkind
    rw [hsource, List.forall₂_cons_left_iff] at hoperands
    obtain ⟨operand, _, ⟨stored, hstored, hbegins⟩, _, rfl⟩ := hoperands
    rw [fillSlot, hkind, elements, hop]
    have hplace : plan.place p = plan.place source := by
      have hshares := Graph.shares_rootOf (Nat.lt_trans hedge.lt hedge.lt_size)
      rw [hsafe.place_shares hshares, hsafe.place_shares (.reshape hnode hkind hedge hshares)]
    exact .inr (.inl ⟨operand.data, stored, rfl, rfl, hplace ▸ hstored, hbegins⟩)
  · have hfill : node.fillSlot (plan.operandPlaces graph node) (plan.place p)
        ⟨operands.map HostTensor.dims, [dims]⟩ bindings pool =
          node.fillComputed (plan.operandPlaces graph node) (plan.place p)
            ⟨operands.map HostTensor.dims, [dims]⟩ pool := by
      unfold fillSlot
      cases hkind' : node.kind with
      | parameter | constant | reshape =>
        rw [hkind'] at hkind
        cases hkind
      | elementwiseBinary | elementwiseUnary | matMul | reduce | reorder => rfl
    rw [hfill, elements_of_isExecutable hkind]
    exact yields_fillComputed hsafe hnode hkind hkept.typed hoperands hsized

end Node

/-! ## Visited places -/

namespace MemoryPlan

/-- With every place that was visited, its producers were; and with the start of a group, all
places that touch an earlier group in the same slot. -/
structure Closed (plan : MemoryPlan) (graph : Graph) (done : List Nat) : Prop where
  edge : ∀ {p q : Nat}, q ∈ done → graph.Edge p q → p ∈ done
  handedOver : ∀ {e q r r' : Nat}, graph.Shares q r → graph.Shares r' r' →
    plan.place q = plan.place r' → r < r' → graph.Accesses e q → r' ∈ done → e ∈ done

/-- No later group has started in the slot of a place. -/
def Intact (plan : MemoryPlan) (graph : Graph) (done : List Nat) (p : Nat) : Prop :=
  ∀ r, graph.Shares p r → ∀ q ∈ done, ∀ r', graph.Shares q r' → plan.place q = plan.place p →
    r' ≤ r

theorem Closed.root_mem (h : plan.Closed graph done) (hshares : graph.Shares p r)
    (hp : p ∈ done) : r ∈ done := by
  induction hshares with
  | start => exact hp
  | reshape _ _ hedge _ ih => exact ih (h.edge hp hedge)

theorem Intact.mono (h : plan.Intact graph (q :: done) p) : plan.Intact graph done p :=
  fun r hr other hother ↦ h r hr other (List.mem_cons_of_mem _ hother)

/-- The slot of an operand is not handed over before its readers were visited. -/
theorem Closed.intact (h : plan.Closed graph done) (hsafe : plan.Safe graph streams)
    (hedge : graph.Edge q p) (hnew : p ∉ done) : plan.Intact graph done q := by
  intro r hr q' hq' r' hr' hplace
  by_contra hlt
  rw [hsafe.place_shares hr'] at hplace
  exact hnew (h.handedOver hr hr'.self hplace.symm (Nat.lt_of_not_le hlt) (.inr hedge)
    (h.root_mem hr' hq'))

/-- A visit to a new place computes into no slot that still holds another value. -/
theorem Closed.place_ne (h : plan.Closed graph done) (hsafe : plan.Safe graph streams)
    (hself : graph.Shares p p) (hnew : p ∉ done) (hr : graph.Shares q r) (hq : q ∈ done)
    (hintact : plan.Intact graph (p :: done) q) : plan.place q ≠ plan.place p := by
  intro hplace
  have hmem := h.root_mem hr hq
  have hle := hintact r hr p (List.mem_cons_self ..) p hself hplace.symm
  have hne : p ≠ r := fun heq ↦ hnew (heq ▸ hmem)
  rw [hsafe.place_shares hr] at hplace
  exact hnew (h.handedOver hself hr.self hplace.symm (Nat.lt_of_le_of_ne hle hne) (.inl rfl) hmem)

/-- Filling the slot of a new place leaves the slots that still hold other values alone. -/
theorem Closed.getElem?_place_fillSlot (h : plan.Closed graph done)
    (hsafe : plan.Safe graph streams) (hnode : graph.nodes[p]? = some node) (hnew : p ∉ done)
    (hq : q ∈ done) (hlt : q < graph.size) (hintact : plan.Intact graph (p :: done) q)
    (inputs : List Nat) (shapes : ConcreteShapes) :
    (node.fillSlot inputs (plan.place p) shapes bindings pool).2.slots[plan.place q]? =
      pool.slots[plan.place q]? := by
  by_cases hidle : node.kind = .constant ∨ node.kind = .reshape
  · unfold Node.fillSlot
    rcases hidle with hkind | hkind <;> rw [hkind]
  · have hself : graph.Shares p p := .start hnode fun hkind ↦ hidle (.inr hkind)
    exact Node.touches_fillSlot.frame _
      (h.place_ne hsafe hself hnew (Graph.shares_rootOf hlt) hq hintact)

end MemoryPlan

namespace Slots

variable {ι : Type} {context : ExecutionContext ι} {slots : Slots} {tensor : HostTensor}

/-- The places that were visited have their naive values: their extents are known, and their slots
hold the elements as long as no later group starts there. -/
structure Simulates (graph : Graph) (bindings : Bindings) (plan : MemoryPlan) (done : List Nat)
    (slots : Slots) : Prop where
  length_extents : slots.extents.length = graph.size
  kept : slots.Kept graph plan
  exists_value : ∀ {p : Nat}, p ∈ done → ∃ tensor, graph.value bindings p = some tensor ∧
    slots.extents[p]? = some (some tensor.dims) ∧
    (plan.Intact graph done p → slots.pool.Holds plan p tensor)

theorem Simulates.lt_size (h : slots.Simulates graph bindings plan done) (hp : p ∈ done) :
    p < graph.size := by
  obtain ⟨_, _, hextents, _⟩ := h.exists_value hp
  rw [← h.length_extents]
  exact (List.getElem?_eq_some_iff.1 hextents).1

/-- What a visit answers, in terms of the naive value of its place. -/
def Visits (graph : Graph) (bindings : Bindings) (plan : MemoryPlan) (done : List Nat) (p : Nat)
    (answer : Except RuntimeError Unit × Slots) : Prop :=
  Refused answer.1 ∨
    (answer.1 = .ok () ∧ answer.2.Simulates graph bindings plan (p :: done)) ∨
    (graph.value bindings p = none ∧ ∃ error, answer.1 = .error error)

/-- The extents of a visit are those of the naive value. -/
theorem concreteShapes_of_operands (context : ExecutionContext ι)
    (hnode : context.graph.nodes[p]? = some node) {extents : List (Option Dims)}
    (hoperands : List.Forall₂ (fun q operand ↦ extents[q]?.join = some operand.dims)
      (context.graph.producers node) operands) (shapes : ConcreteShapes) :
    context.concreteShapes node extents = .ok shapes ↔
      ∃ dims, shapes = ⟨operands.map HostTensor.dims, [dims]⟩ ∧
        node.extents? context.bindings (operands.map HostTensor.dims) = some dims ∧
        node.output.shape.accepts dims = true := by
  have hinputs : List.Forall₂ (fun q dims ↦ extents[q]?.join = some dims)
      (context.graph.producers node) (operands.map HostTensor.dims) := by
    rwa [List.forall₂_map_right_iff]
  rw [ExecutionContext.concreteShapes_eq_ok_iff hnode]
  constructor
  · rintro ⟨inputs, dims, rfl, hinputs', hdims, haccepts⟩
    obtain rfl : inputs = operands.map HostTensor.dims := by
      have hunique := mapM_eq_some_iff.2 hinputs
      rw [mapM_eq_some_iff.2 hinputs', Option.some.injEq] at hunique
      exact hunique
    exact ⟨dims, rfl, Node.extents?_iff_resultDims.2 hdims, haccepts⟩
  · rintro ⟨dims, rfl, hdims, haccepts⟩
    exact ⟨_, dims, rfl, hinputs, Node.extents?_iff_resultDims.1 hdims, haccepts⟩

/-- After a visit that succeeded, its place has its naive value and all others keep theirs. -/
theorem Simulates.filled (h : slots.Simulates graph bindings plan done)
    (hsafe : plan.Safe graph streams) (hclosed : plan.Closed graph done)
    (hnode : graph.nodes[p]? = some node) (hnew : p ∉ done) (inputs : List Nat)
    (shapes : ConcreteShapes) (tensor : HostTensor) (pool' : MemoryPool)
    (hvalue : graph.value bindings p = some tensor)
    (hfill : (node.fillSlot inputs (plan.place p) shapes bindings slots.pool).2 = pool')
    (hholds : pool'.Holds plan p tensor) :
    (⟨pool', slots.extents.set p (some tensor.dims)⟩ : Slots).Simulates graph bindings plan
      (p :: done) := by
  have hkept := kept_fillSlot inputs shapes bindings hsafe h.kept hnode
    (slots.extents.set p (some tensor.dims))
  rw [hfill] at hkept
  refine ⟨by rw [List.length_set, h.length_extents], hkept, fun {q} hq ↦ ?_⟩
  rcases List.mem_cons.1 hq with rfl | hq
  · refine ⟨tensor, hvalue, List.getElem?_set_self ?_, fun _ ↦ hholds⟩
    rw [h.length_extents]
    exact Graph.lt_size hnode
  · obtain ⟨value, hvalue', hextents, hintact⟩ := h.exists_value hq
    have hne : p ≠ q := fun heq ↦ hnew (heq ▸ hq)
    refine ⟨value, hvalue', by rw [List.getElem?_set_ne hne, hextents], fun hlater ↦ ?_⟩
    obtain ⟨data, hdata, hbegins⟩ := hintact hlater.mono
    refine ⟨data, ?_, hbegins⟩
    rw [← hdata, ← hfill]
    exact hclosed.getElem?_place_fillSlot hsafe hnode hnew hq (h.lt_size hq) hlater inputs shapes

/-- The operands of a new place are known, and are still in their slots. -/
theorem Simulates.exists_operands (h : slots.Simulates graph bindings plan done)
    (hsafe : plan.Safe graph streams) (hconstants : graph.ConstantsWellFormed)
    (hbindings : bindings.WellFormed) (hclosed : plan.Closed graph done)
    (hnode : graph.nodes[p]? = some node) (hnew : p ∉ done)
    (hedges : ∀ q, graph.Edge q p → q ∈ done) :
    ∃ operands, List.Forall₂ (fun q operand ↦ graph.value bindings q = some operand ∧
      slots.extents[q]?.join = some operand.dims ∧ slots.pool.Holds plan q operand ∧
      operand.WellFormed) (graph.producers node) operands := by
  refine exists_forall₂ fun q hq ↦ ?_
  have hedge := (Graph.edge_iff hnode).2 hq
  obtain ⟨operand, hvalue, hextents, hintact⟩ := h.exists_value (hedges q hedge)
  obtain ⟨other, hother⟩ := Graph.exists_node (h.lt_size (hedges q hedge))
  exact ⟨operand, hvalue, by rw [hextents, Option.join_some],
    hintact (hclosed.intact hsafe hedge hnew),
    (Graph.value_spec hconstants hbindings hother hvalue).1⟩

/-- A visit to a new place whose operands were visited computes its naive value. -/
theorem Simulates.visit (context : ExecutionContext ι) {slots : Slots}
    (h : slots.Simulates context.graph context.bindings plan done)
    (hsafe : plan.Safe context.graph streams) (hconstants : context.graph.ConstantsWellFormed)
    (hbindings : context.bindings.WellFormed) (hclosed : plan.Closed context.graph done)
    (hp : p < context.graph.size) (hnew : p ∉ done)
    (hedges : ∀ q, context.graph.Edge q p → q ∈ done) :
    Visits context.graph context.bindings plan done p (slots.visit context plan p) := by
  obtain ⟨node, hnode⟩ := Graph.exists_node hp
  obtain ⟨operands, hoperands⟩ :=
    h.exists_operands hsafe hconstants hbindings hclosed hnode hnew hedges
  have hvalue : context.graph.value context.bindings p =
      node.evaluate context.bindings operands := by
    rw [Graph.value_eq hnode, mapM_eq_some_iff.2 (hoperands.imp fun _ _ h ↦ h.1), Option.bind_some]
  have hshapes := concreteShapes_of_operands context hnode (hoperands.imp fun _ _ h ↦ h.2.1)
  simp only [Slots.visit, hnode]
  cases hconcrete : context.concreteShapes node slots.extents with
  | error error =>
    refine .inr (.inr ⟨?_, error, rfl⟩)
    rw [hvalue, Option.eq_none_iff_forall_ne_some]
    intro tensor htensor
    obtain ⟨hdims, haccepts, _⟩ := Node.evaluate_eq_some_iff.1 htensor
    have hok := (hshapes _).2 ⟨tensor.dims, rfl, hdims, haccepts⟩
    exact error_ne_ok (hconcrete.symm.trans hok)
  | ok shapes =>
    obtain ⟨dims, rfl, hdims, haccepts⟩ := (hshapes shapes).1 hconcrete
    have hyields := Node.yields_fillSlot context.bindings dims hsafe hnode
      h.kept (hoperands.imp fun _ _ h ↦ h.2.2.1)
      (forall_mem_of_forall₂ (hoperands.imp fun _ _ h ↦ h.2.2.2))
    have hfilled := h.filled hsafe hclosed hnode hnew (plan.operandPlaces context.graph node)
      ⟨operands.map HostTensor.dims, [dims]⟩
    simp only
    generalize node.fillSlot (plan.operandPlaces context.graph node) (plan.place p)
      ⟨operands.map HostTensor.dims, [dims]⟩ context.bindings slots.pool = answer
      at hyields hfilled
    obtain ⟨result, pool'⟩ := answer
    rcases hyields with ⟨requested, slot, reason, rfl⟩ |
      ⟨data, stored, hdata, rfl, hstored, hbegins⟩ | ⟨hnone, error, rfl⟩
    · exact .inl ⟨requested, slot, reason, rfl⟩
    · have htensor : node.evaluate context.bindings operands = some ⟨dims, data⟩ :=
        Node.evaluate_eq_some_iff.2 ⟨hdims, haccepts, hdata⟩
      exact .inr (.inl ⟨rfl, hfilled ⟨dims, data⟩ pool' (hvalue.trans htensor) rfl
        ⟨stored, hstored, hbegins⟩⟩)
    · refine .inr (.inr ⟨?_, error, rfl⟩)
      rw [hvalue, Option.eq_none_iff_forall_ne_some]
      intro tensor htensor
      obtain ⟨hdims', _, hdata⟩ := Node.evaluate_eq_some_iff.1 htensor
      obtain rfl := Option.some.inj (hdims.symm.trans hdims')
      rw [hnone] at hdata
      cases hdata

end Slots

end TensorEngine
