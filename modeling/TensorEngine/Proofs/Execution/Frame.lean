import TensorEngine.Proofs.Execution.Slots
import TensorEngine.Proofs.Instance.Standards

/-!
# What a visit changes

Whatever implementations compute, a visit changes the instance and the slot of its place, what is
cached and the environment, and nothing else.  Unless it poisons the program, the instance is left
as it was prepared; if it does, the instance has failed.
-/

namespace TensorEngine

/-- A failure, if any, leaves the program usable. -/
def Harmless {α : Type} (result : Except RuntimeError α) : Prop :=
  ∀ error, result = .error error → error.poisonsProgram = false

theorem harmless_ok {α : Type} (a : α) : Harmless (.ok a) := nofun

theorem harmless_error_iff {α : Type} {error : RuntimeError} :
    Harmless (.error error : Except RuntimeError α) ↔ error.poisonsProgram = false := by
  constructor
  · intro h
    exact h error rfl
  · intro h other hother
    obtain rfl := Except.error.inj hother
    exact h

variable {ι ω : Type} {graph : Graph} {plan : MemoryPlan} {p slot : Nat} {node : Node}
  {shapes : ConcreteShapes} {bindings : Bindings} {pool pool' : MemoryPool}

namespace PrimitiveInstance

variable {inst inst' : PrimitiveInstance ι}

/-- The instance has the slots of its place. -/
structure Placed (graph : Graph) (plan : MemoryPlan) (p : Nat) (inst : PrimitiveInstance ι) :
    Prop where
  inputSlots_eq : inst.inputSlots = plan.operandPlaces graph inst.node
  outputSlot_eq : inst.outputSlot = some (plan.place p)

theorem SamePlace.placed (h : SamePlace inst inst') (hplaced : inst.Placed graph plan p) :
    inst'.Placed graph plan p :=
  ⟨by rw [h.inputSlots_eq, h.node_eq, hplaced.inputSlots_eq],
    h.outputSlot_eq.trans hplaced.outputSlot_eq⟩

/-! ## Filling a slot -/

/-- The arguments that an instance gathers are those of its slots. -/
theorem dispatch_eq {impl : ι} (himpl : inst.implementation? = some impl)
    (hplaced : inst.Placed graph plan p)
    (hnotMem : plan.place p ∉ plan.operandPlaces graph inst.node) :
    inst.dispatch shapes pool =
      (pool.arguments (plan.operandPlaces graph inst.node) (plan.place p) shapes).map
        fun (views, out) ↦ ⟨impl, views, plan.place p, out⟩ := by
  unfold dispatch MemoryPool.arguments
  simp only [himpl, hplaced.inputSlots_eq, hplaced.outputSlot_eq, hnotMem, if_false]
  show _ = _ <$> (_ : Except _ _)
  rw [map_bind]
  refine bind_congr fun operands ↦ ?_
  rw [map_bind]
  refine bind_congr fun result ↦ ?_
  rw [map_bind]
  refine bind_congr fun views ↦ ?_
  cases shapes.outputs.head? with
  | none => rfl
  | some dims =>
    cases hout : viewOf result dims <;> simp only [hout] <;> rfl

/-- A parameter's slot is filled with the bound value. -/
theorem fillBinding_eq (inst : PrimitiveInstance ι) (bindings : Bindings) (pool : MemoryPool)
    (hslot : inst.outputSlot = some slot) : inst.node.fillBinding slot bindings pool =
      ((inst.writeBinding bindings pool).1, (inst.writeBinding bindings pool).2.2) := by
  unfold writeBinding Node.fillBinding
  simp only [resultSlot, hslot]
  cases bindings inst.node.id with
  | none => rfl
  | some binding =>
    simp only [reserve, copyBinding]
    cases pool.ensureCapacity slot binding.size with
    | error error => rfl
    | ok answer =>
      obtain ⟨grew, pool'⟩ := answer
      simp only
      cases pool'.read slot with
      | error error => rfl
      | ok data =>
        simp only [Except.mapError, ok_bind]
        cases data.copyFrom binding.data <;> rfl

variable [Implementation ι ω] {env : ω}

/-- What filling the slot of a ready instance leaves. -/
structure FillFrame (inst : PrimitiveInstance ι) (slot : Nat) (pool : MemoryPool) (env : ω)
    (answer : Except RuntimeError Unit × PrimitiveInstance ι × MemoryPool × ω) : Prop where
  same : inst.SamePlace answer.2.1
  touches : pool.Touches slot answer.2.2.1
  kept : Harmless answer.1 → answer.2.1.state = .ready ∧ answer.2.1.bound = inst.bound ∧
    answer.2.1.form = inst.form
  failed : ¬Harmless answer.1 → answer.2.1.state = .failed
  environment : answer.2.2.2 = env ∨ ∃ implementation inputs outputs,
    inst.implementation? = some implementation ∧
      answer.2.2.2 = (Implementation.execute implementation inputs outputs env).2.2

/-- A failure that leaves the program usable, in front of any run. -/
private theorem fillFrame_harmless {error : RuntimeError} (hstate : inst.state = .ready)
    (herror : error.poisonsProgram = false) (htouches : pool.Touches slot pool') :
    FillFrame inst slot pool env (.error error, inst, pool', env) :=
  ⟨.refl inst, htouches, fun _ ↦ ⟨hstate, rfl, rfl⟩,
    fun hnot ↦ absurd (harmless_error_iff.2 herror) hnot, .inl rfl⟩

/-- Memory that is refused leaves an instance that has failed. -/
private theorem fillFrame_refused {error : AllocationError} :
    FillFrame inst slot pool env (.error error.toRuntime, inst.markFailed, pool, env) :=
  ⟨⟨rfl, rfl, rfl, rfl⟩, .refl pool slot,
    fun hharmless ↦ absurd (harmless_error_iff.1 hharmless) nofun, fun _ ↦ rfl, .inl rfl⟩

theorem fillFrame_writeBinding (bindings : Bindings) (pool : MemoryPool) (env : ω)
    (hstate : inst.state = .ready) (hslot : inst.outputSlot = some slot) :
    FillFrame inst slot pool env ((inst.writeBinding bindings pool).1,
      (inst.writeBinding bindings pool).2.1, (inst.writeBinding bindings pool).2.2, env) := by
  have hresult : inst.resultSlot = .ok slot := by rw [resultSlot, hslot]
  unfold writeBinding
  cases bindings inst.node.id with
  | none => exact fillFrame_harmless hstate rfl (.refl pool slot)
  | some binding =>
    simp only [hresult, reserve]
    cases hroom : pool.ensureCapacity slot binding.size with
    | error error => exact fillFrame_refused
    | ok answer =>
      obtain ⟨grew, pool'⟩ := answer
      have htouches := MemoryPool.touches_ensureCapacity hroom
      obtain ⟨_, data, hold, hslots, _⟩ := MemoryPool.ensureCapacity_eq_ok hroom
      have hdata : pool'.slots[slot]? = some data := by
        rw [hslots, List.getElem?_set_self (List.getElem?_eq_some_iff.1 hold).1]
      simp only [copyBinding, MemoryPool.read_eq_ok_iff.2 hdata, Except.mapError, ok_bind]
      cases hcopy : data.copyFrom binding.data with
      | error error => exact fillFrame_harmless hstate rfl htouches
      | ok data' =>
        obtain ⟨_, _, rfl⟩ := TensorData.copyFrom_eq_ok_iff.1 hcopy
        exact ⟨.refl inst, htouches.trans
          (MemoryPool.touches_of_set hdata TensorData.dtype_overwrite rfl),
          fun _ ↦ ⟨hstate, rfl, rfl⟩, fun hnot ↦ absurd (harmless_ok ()) hnot, .inl rfl⟩

/-- A run of the bound implementation writes to the slot of the result only. -/
theorem runKernel_frame (inst : PrimitiveInstance ι) (shapes : ConcreteShapes) (pool : MemoryPool)
    (env : ω) (hslot : inst.outputSlot = some slot) :
    pool.Touches slot (inst.runKernel shapes pool env).2.1 ∧
      ((inst.runKernel shapes pool env).2.2 = env ∨ ∃ implementation inputs outputs,
        inst.implementation? = some implementation ∧ (inst.runKernel shapes pool env).2.2 =
          (Implementation.execute implementation inputs outputs env).2.2) := by
  unfold runKernel
  split
  · exact ⟨.refl pool slot, .inl rfl⟩
  · rename_i call hcall
    obtain ⟨hcallSlot, himplementation⟩ :
        call.slot = slot ∧ inst.implementation? = some call.implementation := by
      unfold dispatch at hcall
      cases himplementation : inst.implementation? with
      | none => simp [himplementation] at hcall
      | some implementation =>
        simp only [himplementation, hslot] at hcall
        split at hcall
        · cases hcall
        · obtain ⟨_, _, hcall⟩ := bind_eq_ok_iff.1 hcall
          obtain ⟨_, _, hcall⟩ := bind_eq_ok_iff.1 hcall
          obtain ⟨_, _, hcall⟩ := bind_eq_ok_iff.1 hcall
          split at hcall
          · obtain ⟨_, _, hcall⟩ := bind_eq_ok_iff.1 hcall
            obtain rfl := Except.ok.inj hcall
            exact ⟨rfl, rfl⟩
          · cases hcall
    exact ⟨hcallSlot ▸ MemoryPool.touches_writeBack, .inr ⟨_, _, _, himplementation, rfl⟩⟩

theorem fillFrame_execute (hstate : inst.state = .ready) (hslot : inst.outputSlot = some slot) :
    FillFrame inst slot pool env (inst.execute shapes pool env) := by
  have hresult : inst.resultSlot = .ok slot := by rw [resultSlot, hslot]
  simp only [execute, target]
  cases elementCount? (shapes.outputs.headD []) with
  | none => exact fillFrame_harmless hstate rfl (.refl pool slot)
  | some count =>
    simp only [hresult, ok_bind, pure_eq_ok, reserve]
    cases hroom : pool.ensureCapacity slot count with
    | error error => exact fillFrame_refused
    | ok answer =>
      obtain ⟨grew, pool'⟩ := answer
      simp only [beginExecute, hstate, if_true]
      have hrun := runKernel_frame (inst.withState .executing) shapes pool' env hslot
      generalize (inst.withState .executing).runKernel shapes pool' env = answer at hrun
      obtain ⟨result, pool'', env'⟩ := answer
      have htouches := (MemoryPool.touches_ensureCapacity hroom).trans hrun.1
      cases result with
      | ok _ =>
        exact ⟨⟨rfl, rfl, rfl, rfl⟩, htouches, fun _ ↦ ⟨rfl, rfl, rfl⟩,
          fun hnot ↦ absurd (harmless_ok ()) hnot, hrun.2⟩
      | error source =>
        have hharmless : Harmless (.error (inst.executionFailure shapes.all source) :
            Except RuntimeError Unit) ↔ source.isCorrupting = false := harmless_error_iff
        refine ⟨?_, htouches, fun hkept ↦ ?_, fun hnot ↦ ?_, hrun.2⟩
        · simp only
          split <;> exact ⟨rfl, rfl, rfl, rfl⟩
        · simp only [hharmless.1 hkept, Bool.false_eq_true, if_false]
          exact ⟨rfl, rfl, rfl⟩
        · have hcorrupting : source.isCorrupting = true := by
            rw [← Bool.not_eq_false]
            exact fun hfalse ↦ hnot (hharmless.2 hfalse)
          simp only [hcorrupting, if_true]
          rfl

theorem fillFrame_fill (shapes : ConcreteShapes) (bindings : Bindings) (pool : MemoryPool)
    (env : ω) (hstate : inst.state = .ready) (hslot : inst.outputSlot = some slot) :
    FillFrame inst slot pool env (inst.fill shapes bindings pool env) := by
  unfold fill
  split
  · exact fillFrame_writeBinding bindings pool env hstate hslot
  all_goals
    first
      | exact fillFrame_execute hstate hslot
      | exact ⟨.refl inst, .refl pool slot, fun _ ↦ ⟨hstate, rfl, rfl⟩,
          fun hnot ↦ absurd (harmless_ok ()) hnot, .inl rfl⟩

/-- Unless it poisons the program, filling the slot of an instance leaves it ready. -/
theorem FillFrame.ready {standard : Standard ι ω}
    {answer : Except RuntimeError Unit × PrimitiveInstance ι × MemoryPool × ω}
    (h : FillFrame inst slot pool env answer) (hready : standard.Ready shapes inst)
    (hharmless : Harmless answer.1) : standard.Ready shapes answer.2.1 := by
  obtain ⟨entry, hbound, hform, hruns⟩ := hready.entry
  obtain ⟨hstate', hbound', hform'⟩ := h.kept hharmless
  exact ⟨hstate', entry, hbound'.trans hbound, hform'.trans hform, h.same.node_eq ▸ hruns⟩

/-- A constant or a reshape leaves the slots as they are. -/
theorem pool_fill (inst : PrimitiveInstance ι) (shapes : ConcreteShapes) (bindings : Bindings)
    (pool : MemoryPool) (env : ω)
    (h : inst.node.kind = .constant ∨ inst.node.kind = .reshape) :
    (inst.fill shapes bindings pool env).2.2.1 = pool := by
  unfold fill
  rcases h with h | h <;> rw [h]

/-- The instance is the one of a place, with its slots. -/
structure Seated (graph : Graph) (plan : MemoryPlan) (p : Nat) (node : Node)
    (inst : PrimitiveInstance ι) : Prop where
  node_eq : inst.node = node
  declared_eq : inst.declaredInputs = graph.inputLayouts node
  placed : inst.Placed graph plan p

omit [Implementation ι ω] in
theorem SamePlace.seated (h : SamePlace inst inst') (hseated : inst.Seated graph plan p node) :
    inst'.Seated graph plan p node :=
  ⟨h.node_eq.trans hseated.node_eq, h.declared_eq.trans hseated.declared_eq,
    h.placed hseated.placed⟩

end PrimitiveInstance

/-! ## Visits -/

/-- Extents that a visit cannot have leave the program usable. -/
theorem poisonsProgram_of_concreteShapes {context : ExecutionContext ι}
    {extents : List (Option Dims)} {error : RuntimeError}
    (h : context.concreteShapes node extents = .error error) : error.poisonsProgram = false := by
  unfold ExecutionContext.concreteShapes at h
  rcases bind_eq_error_iff.1 h with h | ⟨inputs, _, h⟩
  · obtain ⟨input, _, h⟩ := mapM_eq_error h
    split at h
    · cases h
    · obtain rfl := Except.error.inj h
      rfl
  · rcases bind_eq_error_iff.1 h with h | ⟨output, _, h⟩
    · unfold ExecutionContext.resultDims at h
      split at h
      · split at h
        · cases h
        · obtain rfl := Except.error.inj h
          rfl
      · obtain ⟨_, _, rfl⟩ := mapError_eq_error_iff.1 h
        rfl
    · split at h
      · cases h
      · obtain rfl := Except.error.inj h
        rfl

variable [Implementation ι ω]

/-- The implementations at hand are up to a standard for all nodes of a graph, and running them
keeps what it asks of the environment. -/
structure Standard.Holds (standard : Standard ι ω) (graph : Graph) (registry : Registry ι)
    (device : DeviceCaps) : Prop where
  upheld : ∀ node ∈ graph.nodes, ∀ shapes,
    standard.Upheld registry device node (graph.inputLayouts node) shapes
  runs : ∀ {node : Node} {bound : BoundImplementation ι} (inputs outputs : List TensorView)
    {env : ω}, standard.bound node bound → standard.environment env →
    standard.environment (Implementation.execute bound.implementation inputs outputs env).2.2

namespace ExecutionState

variable {standard : Standard ι ω} {context : ExecutionContext ι} {state : ExecutionState ι ω}

/-- Every place has an instance that can be prepared, and the standard is kept. -/
structure Upholds (standard : Standard ι ω) (graph : Graph) (plan : MemoryPlan)
    (state : ExecutionState ι ω) : Prop where
  length_instances : state.instances.length = graph.size
  exists_instance : ∀ {p : Nat} {node : Node}, graph.nodes[p]? = some node →
    ∃ inst, state.instances[p]? = some inst ∧ inst.Seated graph plan p node ∧
      standard.Usable inst
  kept : standard.Kept state.workspace

omit [Implementation ι ω] in
/-- All instances can be prepared. -/
theorem Upholds.usable (h : state.Upholds standard graph plan) {inst : PrimitiveInstance ι}
    (hmem : inst ∈ state.instances) : standard.Usable inst := by
  obtain ⟨q, hinst⟩ := List.mem_iff_getElem?.1 hmem
  have hlt := (List.getElem?_eq_some_iff.1 hinst).1
  rw [h.length_instances] at hlt
  obtain ⟨other, hother, _, husable⟩ := h.exists_instance (List.getElem?_eq_getElem hlt)
  obtain rfl := Option.some.inj (hinst.symm.trans hother)
  exact husable

omit [Implementation ι ω] in
/-- Another instance of a place that can be prepared may take the place. -/
theorem Upholds.replace (h : state.Upholds standard graph plan)
    (hnode : graph.nodes[p]? = some node) {inst : PrimitiveInstance ι} {pool : MemoryPool}
    {extents : List (Option Dims)} {workspace : Workspace ι ω}
    (hseated : inst.Seated graph plan p node) (husable : standard.Usable inst)
    (hkept : standard.Kept workspace) : Upholds standard graph plan
      ⟨state.instances.set p inst, pool, extents, workspace⟩ := by
  refine ⟨by rw [List.length_set, h.length_instances], fun {q other} hother ↦ ?_, hkept⟩
  rcases eq_or_ne p q with rfl | hne
  · obtain rfl := Option.some.inj (hnode.symm.trans hother)
    have hlt := Graph.lt_size hnode
    rw [← h.length_instances] at hlt
    exact ⟨inst, List.getElem?_set_self hlt, hseated, husable⟩
  · rw [List.getElem?_set_ne hne]
    exact h.exists_instance hother

/-- What a visit to a place answers: there may be no such place, its extents may not fit, preparing
its instance may fail, or its slot is filled. -/
inductive Visited (standard : Standard ι ω) (context : ExecutionContext ι) (plan : MemoryPlan)
    (state : ExecutionState ι ω) (p : Nat) : Except RuntimeError Unit × ExecutionState ι ω → Prop
  | absent (hnode : context.graph.nodes[p]? = none) :
      Visited standard context plan state p (.ok (), state)
  | unfit {node : Node} {error : RuntimeError} (hnode : context.graph.nodes[p]? = some node)
      (hshapes : context.concreteShapes node state.extents = .error error) :
      Visited standard context plan state p (.error error, state)
  | unprepared {node : Node} {shapes : ConcreteShapes} {error : RuntimeError}
      {before inst : PrimitiveInstance ι} {workspace : Workspace ι ω}
      (hnode : context.graph.nodes[p]? = some node)
      (hseated : inst.markFailed.Seated context.graph plan p node)
      (herror : error.poisonsProgram = true)
      (hshapes : context.concreteShapes node state.extents = .ok shapes)
      (hinst : state.instances[p]? = some before)
      (hprepare : before.prepare shapes context.specialize state.workspace =
        (.error error, inst, workspace)) :
      Visited standard context plan state p (.error error,
        { state with instances := state.instances.set p inst.markFailed, workspace })
  | filled {node : Node} {shapes : ConcreteShapes} {inst inst' : PrimitiveInstance ι}
      {workspace : Workspace ι ω} {result : Except RuntimeError Unit} {pool : MemoryPool} {env : ω}
      (hnode : context.graph.nodes[p]? = some node)
      (hshapes : context.concreteShapes node state.extents = .ok shapes)
      (hseated : inst.Seated context.graph plan p node) (hready : standard.Ready shapes inst)
      (hkept : standard.Kept workspace)
      (hfill : inst.fill shapes context.bindings state.pool workspace.environment =
        (result, inst', pool, env))
      {before : PrimitiveInstance ι} {transition : Transition}
      (hinst : state.instances[p]? = some before)
      (hprepare : before.prepare shapes context.specialize state.workspace =
        (.ok transition, inst, workspace)) :
      Visited standard context plan state p (result,
        { instances := state.instances.set p inst'
          pool
          extents := match result with
            | .ok _ => state.extents.set p shapes.outputs.head?
            | .error _ => state.extents
          workspace := workspace.withEnvironment env })

/-- A visit goes one of these ways. -/
theorem Upholds.visited (context : ExecutionContext ι)
    (hholds : standard.Holds context.graph context.specialize.registry context.specialize.device)
    (h : state.Upholds standard context.graph plan) (p : Nat) :
    Visited standard context plan state p (state.visit context p) := by
  obtain ⟨graph, ⟨registry, device⟩, bindings⟩ := context
  cases hnode : graph.nodes[p]? with
  | none =>
    have hnone : state.instances[p]? = none := by
      rw [List.getElem?_eq_none_iff] at hnode ⊢
      rw [h.length_instances]
      exact hnode
    simp only [visit, hnone]
    exact .absent hnode
  | some node =>
    obtain ⟨inst, hinst, hseated, husable⟩ := h.exists_instance hnode
    obtain rfl := hseated.node_eq
    simp only [visit, hinst]
    cases hshapes : (⟨graph, ⟨registry, device⟩, bindings⟩ : ExecutionContext ι).concreteShapes
      inst.node state.extents with
    | error error => exact .unfit hnode hshapes
    | ok shapes =>
      have hupheld := hholds.upheld inst.node (List.mem_of_getElem? hnode) shapes
      simp only at hupheld
      rw [← hseated.declared_eq] at hupheld
      have hprepares := hupheld.prepare husable h.kept
      simp only
      generalize hprepare : inst.prepare shapes ⟨registry, device⟩ state.workspace = prepared
        at hprepares
      obtain ⟨error | transition, inst', workspace⟩ := prepared
      · have hpoisons := hprepares.poisons error rfl
        have hfailed : PrimitiveInstance.SamePlace inst' inst'.markFailed := ⟨rfl, rfl, rfl, rfl⟩
        simp only [hpoisons, if_true]
        exact .unprepared hnode ((hprepares.same.trans hfailed).seated hseated) hpoisons hshapes
          hinst hprepare
      · simp only
        generalize hfill : inst'.fill shapes bindings state.pool workspace.environment = filled
        obtain ⟨result, inst'', pool, env⟩ := filled
        cases result with
        | error error =>
          exact .filled hnode hshapes (hprepares.same.seated hseated)
            (hprepares.ready transition rfl) hprepares.kept hfill hinst hprepare
        | ok _ =>
          exact .filled hnode hshapes (hprepares.same.seated hseated)
            (hprepares.ready transition rfl) hprepares.kept hfill hinst hprepare

section

variable {answer : Except RuntimeError Unit × ExecutionState ι ω} {streams : Nat}

/-- A visit keeps types and constants. -/
theorem Visited.kept (h : Visited standard context plan state p answer)
    (hsafe : plan.Safe context.graph streams) (hkept : state.slots.Kept context.graph plan) :
    answer.2.slots.Kept context.graph plan := by
  cases h with
  | absent | unfit | unprepared => exact hkept
  | @filled node shapes inst inst' workspace result pool env hnode _ hseated hready _ hfill =>
    have hframe := PrimitiveInstance.fillFrame_fill shapes context.bindings state.pool
      workspace.environment hready.state_eq hseated.placed.outputSlot_eq
    rw [hfill] at hframe
    refine hkept.touches hsafe hnode hframe.touches (fun hidle ↦ ?_) _
    have hpool := inst.pool_fill shapes context.bindings state.pool workspace.environment
      (hseated.node_eq.symm ▸ hidle)
    rw [hfill] at hpool
    exact hpool

/-- Unless it poisons the program, a visit leaves instances that can be prepared again. -/
theorem Visited.upholds (h : Visited standard context plan state p answer)
    (hholds : standard.Holds context.graph context.specialize.registry context.specialize.device)
    (hstate : state.Upholds standard context.graph plan) (hharmless : Harmless answer.1) :
    answer.2.Upholds standard context.graph plan := by
  cases h with
  | absent | unfit => exact hstate
  | unprepared _ _ herror =>
    rw [harmless_error_iff.1 hharmless] at herror
    cases herror
  | @filled node shapes inst inst' workspace result pool env hnode _ hseated hready hkept hfill =>
    have hframe := PrimitiveInstance.fillFrame_fill shapes context.bindings state.pool
      workspace.environment hready.state_eq hseated.placed.outputSlot_eq
    rw [hfill] at hframe
    obtain ⟨entry, hbound, hform, hruns⟩ := hready.entry
    have hupheld := hholds.upheld inst.node
      (hseated.node_eq.symm ▸ List.mem_of_getElem? hnode) shapes
    rw [← hframe.same.node_eq] at hupheld
    refine hstate.replace hnode (hframe.same.seated hseated)
      ((hframe.ready hready hharmless).usable hupheld) (hkept.withEnvironment ?_)
    have henvironment := hframe.environment
    dsimp only at henvironment
    rcases henvironment with rfl | ⟨implementation, inputs, outputs, himpl, rfl⟩
    · exact hkept.environment
    · rw [PrimitiveInstance.implementation?, hbound, Option.map_some, Option.some.injEq] at himpl
      subst himpl
      have hmeets := (hupheld.again (hframe.same.node_eq.symm ▸ hruns)).1
      exact hholds.runs inputs outputs hmeets hkept.environment

/-- A visit that poisons the program leaves the instance of its place failed, and all others as they
were. -/
theorem Visited.failed (h : Visited standard context plan state p answer)
    (hpoisons : ¬Harmless answer.1) : ∃ node inst, context.graph.nodes[p]? = some node ∧
      inst.node = node ∧ inst.state = .failed ∧
      answer.2.instances = state.instances.set p inst := by
  cases h with
  | absent => exact absurd (harmless_ok ()) hpoisons
  | unfit hnode hshapes =>
    exact absurd (harmless_error_iff.2 (poisonsProgram_of_concreteShapes hshapes)) hpoisons
  | unprepared hnode hseated => exact ⟨_, _, hnode, hseated.node_eq, rfl, rfl⟩
  | @filled node shapes inst inst' workspace result pool env hnode _ hseated hready _ hfill =>
    have hframe := PrimitiveInstance.fillFrame_fill shapes context.bindings state.pool
      workspace.environment hready.state_eq hseated.placed.outputSlot_eq
    rw [hfill] at hframe
    exact ⟨_, _, hnode, hframe.same.node_eq.trans hseated.node_eq, hframe.failed hpoisons, rfl⟩

end

end ExecutionState

end TensorEngine
