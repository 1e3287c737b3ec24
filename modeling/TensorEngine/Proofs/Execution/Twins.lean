import TensorEngine.Proofs.Execution.Orders

/-!
# Executions on slots with different remains

Two executions with the same bindings start on slots that were grown and filled by different
executions before.  What they find in a slot beyond the elements that were written for them
differs, but neither looks there: at every visited place both have the same extents, and as far as
the extents reach they see the same elements.  Constants are never written after the program was
built, so their slots are the same altogether, and they may even be too short for their extents.
-/

namespace TensorEngine

open MemoryPlan PrimitiveInstance

variable {graph : Graph} {plan : MemoryPlan} {streams p q r : Nat} {node : Node}
  {bindings : Bindings} {a b : MemoryPool} {dims : Dims} {inputDims : List Dims}
  {data data' value : TensorData} {done rest : List Nat} {slot count n : Nat}

/-! ## Seeing the same elements -/

/-- Storage shows the front of what it begins with. -/
theorem TensorData.Begins.view_of_le (h : data.Begins value) (hle : n ≤ value.size) :
    data.view n = .ok (value.take n) := by
  have htake : (data.take value.size).take n = data.take n := by
    cases data <;> simp [take, Nat.min_eq_left hle]
  rw [view, if_pos (Nat.le_trans hle h.size_le), ← htake, h]

namespace MemoryPool

/-- A slot of two pools shows the same front for some extents, or is too short for them in the same
way.  Extents that cannot be counted show nothing. -/
def SameView (a b : MemoryPool) (slot : Nat) (dims : Dims) : Prop :=
  ∃ data data', a.slots[slot]? = some data ∧ b.slots[slot]? = some data' ∧
    ∀ count, elementCount? dims = some count → data.view count = data'.view count

/-- Slots that both begin with a value show the same. -/
theorem sameView_of_begins (hdata : a.slots[slot]? = some data)
    (hdata' : b.slots[slot]? = some data') (h : data.Begins value) (h' : data'.Begins value)
    (hle : ∀ count, elementCount? dims = some count → count ≤ value.size) :
    a.SameView b slot dims :=
  ⟨data, data', hdata, hdata', fun count hcount ↦
    (h.view_of_le (hle count hcount)).trans (h'.view_of_le (hle count hcount)).symm⟩

/-- Only the number of elements matters about the extents. -/
theorem SameView.congr {target : Dims} (h : a.SameView b slot dims)
    (hcount : elementCount? dims = elementCount? target) : a.SameView b slot target := by
  obtain ⟨data, data', hdata, hdata', hview⟩ := h
  exact ⟨data, data', hdata, hdata', hcount ▸ hview⟩

/-- What is seen of other slots stays. -/
theorem SameView.touches {a' b' : MemoryPool} (h : a.SameView b slot dims) {s : Nat}
    (hne : slot ≠ s) (ha : a.Touches s a') (hb : b.Touches s b') : a'.SameView b' slot dims := by
  obtain ⟨data, data', hdata, hdata', hview⟩ := h
  exact ⟨data, data', by rw [ha.frame slot hne, hdata], by rw [hb.frame slot hne, hdata'], hview⟩

end MemoryPool

/-- A view for some extents depends on the front of the storage alone. -/
theorem viewOf_congr
    (h : ∀ count, elementCount? dims = some count → data.view count = data'.view count) :
    viewOf data dims = viewOf data' dims := by
  unfold viewOf
  cases hcount : elementCount? dims with
  | none => rfl
  | some count => simp only [h count hcount]

/-- The operands of a run are the same on both pools. -/
private theorem operands_congr {inputs : List Nat}
    (h : List.Forall₂ (a.SameView b) inputs inputDims) :
    ∃ operands operands',
      List.Forall₂ (fun s d ↦ a.slots[s]? = some d) inputs operands ∧
      List.Forall₂ (fun s d ↦ b.slots[s]? = some d) inputs operands' ∧
      (operands.zip inputDims).mapM (fun (data, dims) ↦ viewOf data dims) =
        (operands'.zip inputDims).mapM (fun (data, dims) ↦ viewOf data dims) := by
  induction h with
  | nil => exact ⟨[], [], .nil, .nil, rfl⟩
  | cons hsame _ ih =>
    obtain ⟨operands, operands', hread, hread', hviews⟩ := ih
    obtain ⟨first, first', hfirst, hfirst', hview⟩ := hsame
    refine ⟨first :: operands, first' :: operands', .cons hfirst hread, .cons hfirst' hread', ?_⟩
    simp only [List.zip_cons_cons, List.mapM_cons, viewOf_congr hview, hviews]

/-- The arguments of a run whose slots can be read. -/
private theorem arguments_eq {pool : MemoryPool} {inputs : List Nat} {operands : List TensorData}
    (hread : List.Forall₂ (fun s d ↦ pool.slots[s]? = some d) inputs operands)
    (hdata : pool.slots[slot]? = some data) (hcount : elementCount? dims = some count)
    (hroom : count ≤ data.size) :
    pool.arguments inputs slot ⟨inputDims, [dims]⟩ =
      (operands.zip inputDims).mapM (fun (data, dims) ↦ viewOf data dims) >>= fun views ↦
        .ok (views, ⟨dims, data.take count⟩) := by
  have hoperands : inputs.mapM (fun slot ↦ (pool.read slot).mapError slotError) = .ok operands :=
    mapM_eq_ok_iff.2 (hread.imp fun _ _ h ↦
      mapError_eq_ok_iff.2 (MemoryPool.read_eq_ok_iff.2 h))
  have hresult : (pool.read slot).mapError slotError = .ok data :=
    mapError_eq_ok_iff.2 (MemoryPool.read_eq_ok_iff.2 hdata)
  have hout : viewOf data dims = .ok ⟨dims, data.take count⟩ :=
    viewOf_eq_ok_iff.2 ⟨count, hcount, hroom, rfl⟩
  simp only [MemoryPool.arguments, hoperands, hresult, ok_bind, List.head?_cons, hout, pure_eq_ok]

/-- Two runs have the same operands, or fail in the same way. -/
theorem arguments_congr {inputs : List Nat}
    (hinputs : List.Forall₂ (a.SameView b) inputs inputDims)
    (hdata : a.slots[slot]? = some data) (hdata' : b.slots[slot]? = some data')
    (hcount : elementCount? dims = some count) (hroom : count ≤ data.size)
    (hroom' : count ≤ data'.size) :
    (∃ error, a.arguments inputs slot ⟨inputDims, [dims]⟩ = .error error ∧
      b.arguments inputs slot ⟨inputDims, [dims]⟩ = .error error) ∨
    ∃ views, a.arguments inputs slot ⟨inputDims, [dims]⟩ = .ok (views, ⟨dims, data.take count⟩) ∧
      b.arguments inputs slot ⟨inputDims, [dims]⟩ = .ok (views, ⟨dims, data'.take count⟩) := by
  obtain ⟨operands, operands', hread, hread', hviews⟩ := operands_congr hinputs
  rw [arguments_eq hread hdata hcount hroom, arguments_eq hread' hdata' hcount hroom', hviews]
  cases (operands'.zip inputDims).mapM (fun (data, dims) ↦ viewOf data dims) with
  | error error => exact .inl ⟨error, rfl, rfl⟩
  | ok views => exact .inr ⟨views, rfl, rfl⟩

/-! ## Filling a slot -/

/-- Two answers about a slot are alike: both failed in the same way, or both succeeded and show
the same for some extents; unless memory was refused to one of them. -/
def AlikeAt (slot : Nat) (dims : Dims) (x y : Except RuntimeError Unit × MemoryPool) : Prop :=
  Refused x.1 ∨ Refused y.1 ∨
    (x.1 = y.1 ∧ (x.1 = .ok () → x.2.SameView y.2 slot dims))

theorem alikeAt_error {error : RuntimeError} :
    AlikeAt slot dims (.error error, a) (.error error, b) :=
  .inr (.inr ⟨rfl, fun h ↦ absurd h error_ne_ok⟩)

namespace Node

/-- A parameter's slot shows its bound value, whatever was in it before. -/
theorem alikeAt_fillBinding (hsafe : plan.Safe graph streams)
    (hnode : graph.nodes[p]? = some node) (ha : a.Typed plan) (hb : b.Typed plan)
    (hcovers : ∀ tensor, bindings node.id = some tensor →
      ∀ count, elementCount? dims = some count → count ≤ tensor.size) :
    AlikeAt (plan.place p) dims (node.fillBinding (plan.place p) bindings a)
      (node.fillBinding (plan.place p) bindings b) := by
  unfold fillBinding
  cases hbinding : bindings node.id with
  | none => exact alikeAt_error
  | some binding =>
    simp only
    cases hroom : a.ensureCapacity (plan.place p) binding.size with
    | error error => exact .inl refused_toRuntime
    | ok answer =>
      cases hroom' : b.ensureCapacity (plan.place p) binding.size with
      | error error => exact .inr (.inl refused_toRuntime)
      | ok answer' =>
        obtain ⟨_, a'⟩ := answer
        obtain ⟨_, b'⟩ := answer'
        obtain ⟨data, hdata, hdtype, hsize⟩ := ha.exists_room hsafe hnode hroom
        obtain ⟨data', hdata', hdtype', hsize'⟩ := hb.exists_room hsafe hnode hroom'
        simp only [MemoryPool.read_eq_ok_iff.2 hdata, MemoryPool.read_eq_ok_iff.2 hdata']
        by_cases hsame : binding.data.dtype = node.output.dtype
        · simp only [TensorData.copyFrom_eq_ok_iff.2 ⟨hsame.trans hdtype.symm, hsize, rfl⟩,
            TensorData.copyFrom_eq_ok_iff.2 ⟨hsame.trans hdtype'.symm, hsize', rfl⟩]
          exact .inr (.inr ⟨rfl, fun _ ↦ MemoryPool.sameView_of_begins
            (List.getElem?_set_self (List.getElem?_eq_some_iff.1 hdata).1)
            (List.getElem?_set_self (List.getElem?_eq_some_iff.1 hdata').1)
            (TensorData.begins_overwrite (hsame.trans hdtype.symm) hsize)
            (TensorData.begins_overwrite (hsame.trans hdtype'.symm) hsize')
            (hcovers binding hbinding)⟩)
        · simp only [TensorData.copyFrom, hdtype, hdtype', ne_eq, hsame, not_false_eq_true, if_true]
          exact alikeAt_error

/-- A kernel leaves the same in both slots, whatever was in them before. -/
theorem alikeAt_runReference (hkind : node.kind.isExecutable = true) {inputs : List Nat}
    (hinputs : List.Forall₂ (a.SameView b) inputs inputDims)
    (hdata : a.slots[slot]? = some data) (hdata' : b.slots[slot]? = some data')
    (hdtype : data.dtype = data'.dtype) (hcount : elementCount? dims = some count)
    (hroom : count ≤ data.size) (hroom' : count ≤ data'.size) :
    AlikeAt slot dims (node.runReference inputs slot ⟨inputDims, [dims]⟩ a)
      (node.runReference inputs slot ⟨inputDims, [dims]⟩ b) := by
  unfold runReference
  rcases arguments_congr hinputs hdata hdata' hcount hroom hroom' with
    ⟨error, herror, herror'⟩ | ⟨views, hviews, hviews'⟩
  · rw [herror, herror']
    exact alikeAt_error
  · have hregular := ReferenceImplementation.regular_run (isExecutable_ofOp hkind) views dims
    have hagrees := hregular.agrees (data.take count) (data'.take count)
      (by rw [TensorData.dtype_take, TensorData.dtype_take, hdtype])
      (by rw [TensorData.size_take, TensorData.size_take, Nat.min_eq_left hroom,
        Nat.min_eq_left hroom'])
    have hsize := hregular.size_eq (data.take count)
    have htype := hregular.dtype_eq (data.take count)
    rw [hviews, hviews']
    simp only
    generalize ReferenceImplementation.run (.ofOp node.op) views ⟨dims, data.take count⟩ = outcome
      at hagrees hsize htype
    generalize ReferenceImplementation.run (.ofOp node.op) views ⟨dims, data'.take count⟩ =
      outcome' at hagrees
    rw [← hagrees.ended_eq]
    cases hended : outcome.ended with
    | error fault => exact alikeAt_error
    | ok _ =>
      rw [← hagrees.out_eq hended]
      rw [TensorData.size_take, Nat.min_eq_left hroom] at hsize
      rw [TensorData.dtype_take] at htype
      refine .inr (.inr ⟨rfl, fun _ ↦ ?_⟩)
      simp only [writeBack, hdata, hdata', List.head?_cons]
      refine MemoryPool.sameView_of_begins
        (List.getElem?_set_self (List.getElem?_eq_some_iff.1 hdata).1)
        (List.getElem?_set_self (List.getElem?_eq_some_iff.1 hdata').1)
        (TensorData.begins_overwrite htype (hsize ▸ hroom))
        (TensorData.begins_overwrite (htype.trans hdtype) (hsize ▸ hroom')) fun n hn ↦ ?_
      exact Nat.le_of_eq ((Option.some.inj (hn.symm.trans hcount)).trans hsize.symm)

theorem alikeAt_fillComputed (hsafe : plan.Safe graph streams)
    (hnode : graph.nodes[p]? = some node) (hkind : node.kind.isExecutable = true)
    (ha : a.Typed plan) (hb : b.Typed plan)
    (hinputs : List.Forall₂ (fun q ↦ a.SameView b (plan.place q))
      (graph.producers node) inputDims) :
    AlikeAt (plan.place p) dims
      (node.fillComputed (plan.operandPlaces graph node) (plan.place p) ⟨inputDims, [dims]⟩ a)
      (node.fillComputed (plan.operandPlaces graph node) (plan.place p) ⟨inputDims, [dims]⟩ b) := by
  simp only [fillComputed, List.headD_cons]
  cases hcount : elementCount? dims with
  | none => exact alikeAt_error
  | some count =>
    simp only
    cases hroom : a.ensureCapacity (plan.place p) count with
    | error error => exact .inl refused_toRuntime
    | ok answer =>
      cases hroom' : b.ensureCapacity (plan.place p) count with
      | error error => exact .inr (.inl refused_toRuntime)
      | ok answer' =>
        obtain ⟨_, a'⟩ := answer
        obtain ⟨_, b'⟩ := answer'
        obtain ⟨data, hdata, hdtype, hsize⟩ := ha.exists_room hsafe hnode hroom
        obtain ⟨data', hdata', hdtype', hsize'⟩ := hb.exists_room hsafe hnode hroom'
        have hother : ∀ q ∈ graph.producers node, plan.place q ≠ plan.place p := by
          intro q hq hsame
          exact hsafe.place_notMem hnode hkind (hsame ▸ List.mem_map_of_mem hq)
        have hoperands : List.Forall₂ (a'.SameView b')
            (plan.operandPlaces graph node) inputDims := by
          rw [operandPlaces, List.forall₂_map_left_iff]
          refine ((List.forall₂_and_left _ _).2 ⟨hother, hinputs⟩).imp fun q _ h ↦ ?_
          exact h.2.touches h.1 (MemoryPool.touches_ensureCapacity hroom)
            (MemoryPool.touches_ensureCapacity hroom')
        exact alikeAt_runReference hkind hoperands hdata hdata' (hdtype.trans hdtype'.symm) hcount
          hsize hsize'

end Node

/-- Every value that is bound to a parameter has at least as many elements as its extents need, when
these can be counted.  There may be more of them. -/
def Graph.CoveredBy (graph : Graph) (bindings : Bindings) : Prop :=
  ∀ node ∈ graph.nodes, node.kind = .parameter → ∀ tensor, bindings node.id = some tensor →
    ∀ count, elementCount? tensor.dims = some count → count ≤ tensor.size

/-- The constants have the same slots. -/
def SameConstants (graph : Graph) (plan : MemoryPlan) (a b : MemoryPool) : Prop :=
  ∀ (p : Nat) (node : Node), graph.nodes[p]? = some node → node.kind = .constant →
    a.slots[plan.place p]? = b.slots[plan.place p]?

/-- The slot of a place shows the same after it was filled on both pools. -/
theorem alikeAt_fillSlot {ι : Type} {context : ExecutionContext ι}
    (hsafe : plan.Safe context.graph streams) (hnode : context.graph.nodes[p]? = some node)
    (ha : a.Typed plan) (hb : b.Typed plan) (hconstants : SameConstants context.graph plan a b)
    (hcovered : context.graph.CoveredBy context.bindings)
    (hinputs : List.Forall₂ (fun q ↦ a.SameView b (plan.place q))
      (context.graph.producers node) inputDims)
    (hdims : context.resultDims node inputDims = .ok dims) :
    AlikeAt (plan.place p) dims
      (node.fillSlot (plan.operandPlaces context.graph node) (plan.place p) ⟨inputDims, [dims]⟩
        context.bindings a)
      (node.fillSlot (plan.operandPlaces context.graph node) (plan.place p) ⟨inputDims, [dims]⟩
        context.bindings b) := by
  unfold Node.fillSlot
  cases hkind : node.kind with
  | parameter =>
    refine Node.alikeAt_fillBinding hsafe hnode ha hb fun tensor htensor ↦ ?_
    have hbound := hdims
    rw [ExecutionContext.resultDims, if_pos hkind, htensor] at hbound
    rw [← Except.ok.inj hbound]
    exact hcovered node (List.mem_of_getElem? hnode) hkind tensor htensor
  | constant =>
    obtain ⟨data, hdata, _⟩ := ha.exists_data hsafe hnode
    exact .inr (.inr ⟨rfl, fun _ ↦ ⟨data, data, hdata,
      (hconstants p node hnode hkind).symm.trans hdata, fun _ _ ↦ rfl⟩⟩)
  | reshape =>
    obtain ⟨source, hsource, hedge⟩ := Graph.producers_of_reshape hnode hkind
    obtain ⟨target, hop⟩ := Graph.op_of_kind_reshape hkind
    rw [hsource, List.forall₂_cons_left_iff] at hinputs
    obtain ⟨operand, _, hsame, hnil, rfl⟩ := hinputs
    rw [List.forall₂_nil_left_iff] at hnil
    subst hnil
    rw [ExecutionContext.resultDims_eq_ok_iff (by rw [hkind]; decide), hop] at hdims
    obtain ⟨total, htotal, hcount⟩ := elementCount?_reshape hdims
    have hplace : plan.place p = plan.place source := by
      have hshares := Graph.shares_rootOf (Nat.lt_trans hedge.lt hedge.lt_size)
      rw [hsafe.place_shares hshares, hsafe.place_shares (.reshape hnode hkind hedge hshares)]
    exact .inr (.inr ⟨rfl, fun _ ↦ hplace ▸ hsame.congr (htotal.trans hcount.symm)⟩)
  | elementwiseBinary | elementwiseUnary | matMul | reduce | reorder =>
    exact Node.alikeAt_fillComputed hsafe hnode (by rw [hkind]; rfl) ha hb hinputs

/-! ## Visits -/

namespace Slots

variable {ι : Type} {x y : Slots}

/-- A visit leaves the slot of every constant alone. -/
theorem getElem?_place_visit (context : ExecutionContext ι) (slots : Slots)
    (hsafe : plan.Safe context.graph streams) (hnode : context.graph.nodes[p]? = some node)
    (hkind : node.kind = .constant) (q : Nat) :
    (slots.visit context plan q).2.pool.slots[plan.place p]? =
      slots.pool.slots[plan.place p]? := by
  have hself : context.graph.Shares p p := .start hnode (by rw [hkind]; decide)
  unfold visit
  split
  · rfl
  · rename_i other hother
    split
    · rfl
    · rename_i shapes _
      have hslot : (other.fillSlot (plan.operandPlaces context.graph other) (plan.place q) shapes
          context.bindings slots.pool).2.slots[plan.place p]? =
            slots.pool.slots[plan.place p]? := by
        by_cases hidle : other.kind = .constant ∨ other.kind = .reshape
        · unfold Node.fillSlot
          rcases hidle with hidle | hidle <;> rw [hidle]
        · refine Node.touches_fillSlot.frame _ (Ne.symm (hsafe.place_ne hself
            ⟨node, hnode, .inr (.inl hkind)⟩ (.start hother fun h ↦ hidle (.inr h)) ?_))
          rintro rfl
          obtain rfl := Option.some.inj (hnode.symm.trans hother)
          exact hidle (.inl hkind)
      split <;> rename_i hfill <;> rw [hfill] at hslot <;> exact hslot

/-- Two executions that have visited the same places: they have the same extents there and see the
same elements as far as these reach, as long as no later group starts in the slot. -/
structure Twins (graph : Graph) (plan : MemoryPlan) (done : List Nat) (x y : Slots) : Prop where
  length_extents : x.extents.length = graph.size
  extents_eq : x.extents = y.extents
  typed_left : x.pool.Typed plan
  typed_right : y.pool.Typed plan
  constants : SameConstants graph plan x.pool y.pool
  sees : ∀ {p : Nat}, p ∈ done → ∃ dims, x.extents[p]? = some (some dims) ∧
    (plan.Intact graph done p → x.pool.SameView y.pool (plan.place p) dims)

theorem Twins.lt_size (h : Twins graph plan done x y) (hp : p ∈ done) : p < graph.size := by
  obtain ⟨_, hextents, _⟩ := h.sees hp
  rw [← h.length_extents]
  exact (List.getElem?_eq_some_iff.1 hextents).1

/-- What two visits of the same place answer. -/
def VisitAlike (graph : Graph) (plan : MemoryPlan) (done : List Nat)
    (x y : Except RuntimeError Unit × Slots) : Prop :=
  Refused x.1 ∨ Refused y.1 ∨ (x.1 = y.1 ∧ (x.1 = .ok () → Twins graph plan done x.2 y.2))

/-- After visits to a new place that both succeeded, it shows the same in both executions, and all
others show what they did before. -/
theorem Twins.filled (context : ExecutionContext ι) (h : Twins context.graph plan done x y)
    (hsafe : plan.Safe context.graph streams) (hclosed : plan.Closed context.graph done)
    (hnode : context.graph.nodes[p]? = some node) (hnew : p ∉ done) (shapes : ConcreteShapes)
    (dims : Dims) (inputs : List Nat)
    (hfill : node.fillSlot inputs (plan.place p) shapes context.bindings x.pool = (.ok (), a))
    (hfill' : node.fillSlot inputs (plan.place p) shapes context.bindings y.pool = (.ok (), b))
    (hconstants : SameConstants context.graph plan a b)
    (hsame : a.SameView b (plan.place p) dims) :
    Twins context.graph plan (p :: done) ⟨a, x.extents.set p (some dims)⟩
      ⟨b, x.extents.set p (some dims)⟩ := by
  have htouches : ∀ pool : MemoryPool, pool.Touches (plan.place p)
      (node.fillSlot inputs (plan.place p) shapes context.bindings pool).2 :=
    fun _ ↦ Node.touches_fillSlot
  have hleft := htouches x.pool
  have hright := htouches y.pool
  rw [hfill] at hleft
  rw [hfill'] at hright
  refine ⟨by rw [List.length_set, h.length_extents], rfl,
    hleft.typed h.typed_left, hright.typed h.typed_right, hconstants, fun {q} hq ↦ ?_⟩
  rcases List.mem_cons.1 hq with rfl | hq
  · refine ⟨dims, List.getElem?_set_self ?_, fun _ ↦ hsame⟩
    rw [h.length_extents]
    exact Graph.lt_size hnode
  · obtain ⟨others, hextents, hintact⟩ := h.sees hq
    have hne : p ≠ q := fun heq ↦ hnew (heq ▸ hq)
    refine ⟨others, by rw [List.getElem?_set_ne hne, hextents], fun hlater ↦ ?_⟩
    obtain ⟨data, data', hdata, hdata', hview⟩ := hintact hlater.mono
    have hkeeps : ∀ pool : MemoryPool,
        (node.fillSlot inputs (plan.place p) shapes context.bindings pool).2.slots[plan.place q]? =
          pool.slots[plan.place q]? :=
      fun _ ↦ hclosed.getElem?_place_fillSlot hsafe hnode hnew hq (h.lt_size hq) hlater inputs
        shapes
    refine ⟨data, data', ?_, ?_, hview⟩
    · rw [← hdata, ← hkeeps x.pool, hfill]
    · rw [← hdata', ← hkeeps y.pool, hfill']

/-- Visits to a new place whose operands were visited are alike. -/
theorem Twins.visit (context : ExecutionContext ι) (h : Twins context.graph plan done x y)
    (hsafe : plan.Safe context.graph streams) (hclosed : plan.Closed context.graph done)
    (hcovered : context.graph.CoveredBy context.bindings) (hp : p < context.graph.size)
    (hnew : p ∉ done) (hedges : ∀ q, context.graph.Edge q p → q ∈ done) :
    VisitAlike context.graph plan (p :: done) (x.visit context plan p)
      (y.visit context plan p) := by
  obtain ⟨node, hnode⟩ := Graph.exists_node hp
  have hconstants : SameConstants context.graph plan (x.visit context plan p).2.pool
      (y.visit context plan p).2.pool := by
    intro q other hother hkind
    rw [getElem?_place_visit context x hsafe hother hkind,
      getElem?_place_visit context y hsafe hother hkind]
    exact h.constants q other hother hkind
  simp only [Slots.visit, hnode, ← h.extents_eq] at hconstants ⊢
  cases hconcrete : context.concreteShapes node x.extents with
  | error error => exact .inr (.inr ⟨rfl, fun h ↦ absurd h error_ne_ok⟩)
  | ok shapes =>
    obtain ⟨inputDims, dims, rfl, hextents, hdims, _⟩ :=
      (ExecutionContext.concreteShapes_eq_ok_iff hnode).1 hconcrete
    have hinputs : List.Forall₂
        (fun q ↦ x.pool.SameView y.pool (plan.place q))
        (context.graph.producers node) inputDims := by
      have hmem : ∀ q ∈ context.graph.producers node, context.graph.Edge q p :=
        fun q ↦ (Graph.edge_iff hnode).2
      refine ((List.forall₂_and_left _ _).2 ⟨hmem, hextents⟩).imp fun q others h' ↦ ?_
      obtain ⟨hedge, hothers⟩ := h'
      obtain ⟨seen, hseen, hintact⟩ := h.sees (hedges q hedge)
      obtain rfl : seen = others := by
        rw [hseen, Option.join_some] at hothers
        exact Option.some.inj hothers
      exact hintact (hclosed.intact hsafe hedge hnew)
    have halike := alikeAt_fillSlot hsafe hnode h.typed_left h.typed_right h.constants hcovered
      hinputs hdims
    have hfilled := fun {a b : MemoryPool} ↦ h.filled (a := a) (b := b) context hsafe hclosed hnode
      hnew ⟨inputDims, [dims]⟩ dims (plan.operandPlaces context.graph node)
    simp only [hconcrete] at hconstants ⊢
    generalize node.fillSlot (plan.operandPlaces context.graph node) (plan.place p)
      ⟨inputDims, [dims]⟩ context.bindings x.pool = answer at halike hfilled hconstants
    generalize node.fillSlot (plan.operandPlaces context.graph node) (plan.place p)
      ⟨inputDims, [dims]⟩ context.bindings y.pool = answer' at halike hfilled hconstants
    obtain ⟨result, a⟩ := answer
    obtain ⟨result', b⟩ := answer'
    rcases halike with ⟨requested, slot, reason, hrefused⟩ | ⟨requested, slot, reason, hrefused⟩ |
      ⟨hresult, hsame⟩
    · obtain rfl : result = _ := hrefused
      exact .inl ⟨requested, slot, reason, rfl⟩
    · obtain rfl : result' = _ := hrefused
      exact .inr (.inl ⟨requested, slot, reason, rfl⟩)
    · obtain rfl : result = result' := hresult
      cases result with
      | error error => exact .inr (.inr ⟨rfl, fun h ↦ absurd h error_ne_ok⟩)
      | ok _ => exact .inr (.inr ⟨rfl, fun _ ↦ hfilled rfl rfl hconstants (hsame rfl)⟩)

/-! ## Runs -/

/-- Before the first visit only the constants have to be the same. -/
theorem twins_nil (ha : a.Typed plan) (hb : b.Typed plan)
    (hconstants : SameConstants graph plan a b) :
    Twins graph plan [] ⟨a, List.replicate graph.size none⟩
      ⟨b, List.replicate graph.size none⟩ :=
  ⟨List.length_replicate, rfl, ha, hb, hconstants, fun hp ↦ absurd hp List.not_mem_nil⟩

/-- Runs in an admissible order end alike, unless memory is refused to one of them. -/
theorem visitAll_twins (context : ExecutionContext ι) (hsafe : plan.Safe context.graph streams)
    (hcovered : context.graph.CoveredBy context.bindings)
    (horder : Admissible plan context.graph done rest) :
    ∀ {x y : Slots}, Twins context.graph plan done x y →
      VisitAlike context.graph plan (rest.reverse ++ done) (x.visitAll context plan rest)
        (y.visitAll context plan rest) := by
  induction horder with
  | nil => exact fun h ↦ .inr (.inr ⟨rfl, fun _ ↦ h⟩)
  | @cons done rest p hclosed hp hnew hedges _ ih =>
    intro x y h
    have halike := h.visit context hsafe hclosed hcovered hp hnew hedges
    simp only [visitAll]
    generalize x.visit context plan p = answer at halike
    generalize y.visit context plan p = answer' at halike
    obtain ⟨result, x'⟩ := answer
    obtain ⟨result', y'⟩ := answer'
    rcases halike with ⟨requested, slot, reason, hrefused⟩ | ⟨requested, slot, reason, hrefused⟩ |
      ⟨hresult, htwins⟩
    · obtain rfl : result = _ := hrefused
      exact .inl ⟨requested, slot, reason, rfl⟩
    · obtain rfl : result' = _ := hrefused
      exact .inr (.inl ⟨requested, slot, reason, rfl⟩)
    · obtain rfl : result = result' := hresult
      cases result with
      | error error => exact .inr (.inr ⟨rfl, fun h ↦ absurd h error_ne_ok⟩)
      | ok _ =>
        have hrest := ih (htwins rfl)
        rwa [List.reverse_cons, List.append_assoc, List.singleton_append]

/-- After all visits the slot of an output shows the same in both executions. -/
theorem Twins.output (h : Twins graph plan done x y) (hsafe : plan.Safe graph streams)
    (hall : ∀ p < graph.size, p ∈ done) (hnode : graph.nodes[p]? = some node)
    (houtput : node.id ∈ graph.outputs) : ∃ dims, x.extents[p]? = some (some dims) ∧
      x.pool.SameView y.pool (plan.place p) dims := by
  obtain ⟨dims, hextents, hintact⟩ := h.sees (hall p (Graph.lt_size hnode))
  refine ⟨dims, hextents, hintact fun r hr q _ r' hr' hplace ↦ ?_⟩
  exact Nat.le_of_eq (hsafe.eq_of_dedicated hr hr' hplace.symm hr
    ⟨node, hnode, .inr (.inr houtput)⟩)

end Slots

end TensorEngine
