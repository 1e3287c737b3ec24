import TensorEngine.Proofs.Execution.Frame
import TensorEngine.Proofs.Instance.Preparation

/-!
# Visits

A visit of an instance that can be prepared does to the slots what `Slots.visit` says, whatever
implementation it ends up with.  Unless it fails in a way that poisons the program, the instance
can be prepared again afterwards, so the same holds for the visits of all later executions.
-/

namespace TensorEngine

open CatalogueImplementation

variable {graph : Graph} {plan : MemoryPlan} {registry : Registry CatalogueImplementation}
  {device : DeviceCaps} {streams p : Nat} {node : Node} {shapes : ConcreteShapes} {dims : Dims}
  {pool : MemoryPool} {env : Environment} {bindings : Bindings}

/-- What is taken from the slots fits the extents and the declared element types. -/
theorem arguments_spec {views : List TensorView} {out : TensorView}
    (hsafe : plan.Safe graph streams) (hnode : graph.nodes[p]? = some node)
    (htyped : pool.Typed plan) (hkind : node.kind ≠ .parameter)
    (hderives : node.Derives (graph.inputLayouts node) shapes dims)
    (h : pool.arguments (plan.operandPlaces graph node) (plan.place p) shapes = .ok (views, out)) :
    Arguments node (graph.inputLayouts node) shapes views out := by
  obtain ⟨inputDims, outputs⟩ := shapes
  obtain rfl : outputs = [dims] := hderives.outputs_eq
  obtain ⟨operands, data, hoperands, hdata, hviews, hout⟩ := MemoryPool.arguments_eq_ok_iff.1 h
  have hlen : operands.length = inputDims.length := by
    rw [← hoperands.length_eq, hderives.length_inputs, MemoryPlan.operandPlaces, List.length_map,
      Graph.length_producers hnode, Graph.length_inputLayouts hnode]
  obtain ⟨hdims, hsized⟩ := forall₂_viewOf hlen hviews
  rw [MemoryPlan.operandPlaces, List.forall₂_map_left_iff] at hoperands
  have htypes : List.Forall₂ (fun view layout ↦ view.data.dtype = layout.dtype) views
      (graph.inputLayouts node) := by
    refine forall₂_trans (forall₂_trans hsized.flip hoperands.flip
      (T := fun view q ↦ ∀ other, graph.nodes[q]? = some other →
        view.data.dtype = other.output.dtype) ?_) (Graph.inputLayouts_eq hnode) ?_
    · intro view data q hview hq other hother
      obtain ⟨data', hdata', hdtype⟩ := htyped.exists_data hsafe hother
      obtain rfl : data = data' := Option.some.inj (hq.symm.trans hdata')
      exact hview.2.trans hdtype
    · rintro view q layout hview ⟨other, hother, rfl⟩
      exact hview other hother
  obtain ⟨count, hcount, hle, rfl⟩ := viewOf_eq_ok_iff.1 hout
  obtain ⟨data', hdata', hdtype⟩ := htyped.exists_data hsafe hnode
  obtain rfl : data = data' := Option.some.inj (hdata.symm.trans hdata')
  refine ⟨hdims, forall_mem_of_forall₂ (hsized.imp fun _ _ h ↦ h.1), htypes,
    hderives.derived.resolve_left hkind, ?_, ?_⟩
  · show elementCount? dims = some (data.take count).size
    rw [hcount, TensorData.size_take, Nat.min_eq_left hle]
  · exact TensorData.dtype_take.trans hdtype

namespace PrimitiveInstance

variable {inst inst' : PrimitiveInstance CatalogueImplementation}

/-- What filling a slot answers: the result and the slots of the node, and an instance that is
still ready unless the program is poisoned. -/
structure Fills (registry : Registry CatalogueImplementation) (shapes : ConcreteShapes)
    (inst : PrimitiveInstance CatalogueImplementation) (env : Environment)
    (expected : Except RuntimeError Unit × MemoryPool)
    (answer : Except RuntimeError Unit × PrimitiveInstance CatalogueImplementation × MemoryPool ×
      Environment) : Prop where
  result_eq : answer.1 = expected.1
  pool_eq : answer.2.2.1 = expected.2
  env_eq : answer.2.2.2 = env
  same : SamePlace inst answer.2.1
  ready : Harmless expected.1 → answer.2.1.ReadyFor registry shapes

/-- An instance whose slot was filled as expected is ready again, unless the program is poisoned. -/
theorem fills_of_frame {slot : Nat} {expected : Except RuntimeError Unit × MemoryPool}
    {answer : Except RuntimeError Unit × PrimitiveInstance CatalogueImplementation × MemoryPool ×
      Environment} (hready : inst.ReadyFor registry shapes)
    (hframe : FillFrame inst slot pool env answer) (hresult : answer.1 = expected.1)
    (hpool : answer.2.2.1 = expected.2) (henv : answer.2.2.2 = env) :
    Fills registry shapes inst env expected answer := by
  refine ⟨hresult, hpool, henv, hframe.same, fun hharmless ↦ ?_⟩
  obtain ⟨entry, hbound, hform, hsound⟩ := hready.entry
  obtain ⟨hstate, hbound', hform'⟩ := hframe.kept (hresult ▸ hharmless)
  refine ⟨hstate, entry, hbound'.trans hbound, hform'.trans hform, ?_⟩
  rw [hframe.same.node_eq, hframe.same.declared_eq]
  exact hsound

theorem writeBinding_spec (hready : inst.ReadyFor registry shapes)
    (hplaced : inst.Placed graph plan p) :
    Fills registry shapes inst env (inst.node.fillBinding (plan.place p) bindings pool)
      ((inst.writeBinding bindings pool).1, (inst.writeBinding bindings pool).2.1,
        (inst.writeBinding bindings pool).2.2, env) := by
  rw [inst.fillBinding_eq bindings pool hplaced.outputSlot_eq]
  exact fills_of_frame hready
    (fillFrame_writeBinding bindings pool env hready.state_eq hplaced.outputSlot_eq) rfl rfl rfl

/-- Running the bound implementation leaves what the reference kernel computes. -/
theorem runKernel_eq (env : Environment) (hsafe : plan.Safe graph streams) (hof : inst.Of graph)
    (hnode : graph.nodes[p]? = some inst.node) (hready : inst.ReadyFor registry shapes)
    (hplaced : inst.Placed graph plan p) (htyped : pool.Typed plan)
    (hkind : inst.node.kind.isExecutable = true)
    (hderives : inst.node.Derives inst.declaredInputs shapes dims) :
    ∃ result, inst.runKernel shapes pool env = (result, (inst.node.runReference
        (plan.operandPlaces graph inst.node) (plan.place p) shapes pool).2, env) ∧
      result.mapError (inst.executionFailure shapes.all) = (inst.node.runReference
        (plan.operandPlaces graph inst.node) (plan.place p) shapes pool).1 := by
  obtain ⟨entry, hbound, _, hsound⟩ := hready.entry
  have himpl : inst.implementation? = some entry.bound.implementation := by
    rw [implementation?, hbound, Option.map_some]
  have hnotMem := hsafe.place_notMem hnode hkind
  unfold runKernel Node.runReference
  rw [dispatch_eq himpl hplaced hnotMem]
  cases harguments : pool.arguments (plan.operandPlaces graph inst.node) (plan.place p) shapes with
  | error error => exact ⟨_, rfl, rfl⟩
  | ok answer =>
    obtain ⟨views, out⟩ := answer
    rw [hof.declared_eq] at hderives
    have hargs := arguments_spec hsafe hnode htyped
      (OperationKind.ne_parameter_of_isExecutable hkind) hderives harguments
    have hserves := hsound.serves
    rw [hof.declared_eq] at hserves
    obtain ⟨result, hexecute, hresult⟩ :=
      execute_eq env hserves hargs (Graph.fits hnode).outputs_eq
    simp only [Except.map, hexecute]
    exact ⟨_, rfl, by rw [hresult]; rfl⟩

/-- Filling the slot of an executable node. -/
theorem execute_spec (hsafe : plan.Safe graph streams) (hof : inst.Of graph)
    (hnode : graph.nodes[p]? = some inst.node) (hready : inst.ReadyFor registry shapes)
    (hplaced : inst.Placed graph plan p) (htyped : pool.Typed plan)
    (hkind : inst.node.kind.isExecutable = true)
    (hderives : inst.node.Derives inst.declaredInputs shapes dims) :
    Fills registry shapes inst env (inst.node.fillComputed (plan.operandPlaces graph inst.node)
      (plan.place p) shapes pool) (inst.execute shapes pool env) := by
  obtain ⟨hresult, hpool, henv⟩ : (inst.execute shapes pool env).1 = (inst.node.fillComputed
      (plan.operandPlaces graph inst.node) (plan.place p) shapes pool).1 ∧
      (inst.execute shapes pool env).2.2.1 = (inst.node.fillComputed
        (plan.operandPlaces graph inst.node) (plan.place p) shapes pool).2 ∧
      (inst.execute shapes pool env).2.2.2 = env := by
    have hslot : inst.resultSlot = .ok (plan.place p) := by
      rw [resultSlot, hplaced.outputSlot_eq]
    simp only [execute, Node.fillComputed, target]
    cases elementCount? (shapes.outputs.headD []) with
    | none => exact ⟨rfl, rfl, rfl⟩
    | some count =>
      simp only [hslot, ok_bind, pure_eq_ok, reserve]
      cases hroom : pool.ensureCapacity (plan.place p) count with
      | error error => exact ⟨rfl, rfl, rfl⟩
      | ok answer =>
        obtain ⟨grew, pool'⟩ := answer
        simp only [beginExecute, hready.state_eq, if_true]
        have hrun : (inst.withState .executing).runKernel shapes pool' env =
          inst.runKernel shapes pool' env := rfl
        obtain ⟨result, hkernel, hresult⟩ := runKernel_eq env hsafe hof hnode hready hplaced
          ((MemoryPool.touches_ensureCapacity hroom).typed htyped) hkind hderives
        rw [hrun, hkernel]
        cases result with
        | ok _ => exact ⟨hresult, rfl, rfl⟩
        | error source => exact ⟨hresult, rfl, rfl⟩
  exact fills_of_frame hready (fillFrame_execute hready.state_eq hplaced.outputSlot_eq) hresult
    hpool henv

/-- Filling the slot of an instance that is ready for the extents. -/
theorem fill_spec (bindings : Bindings) (env : Environment) (hsafe : plan.Safe graph streams)
    (hof : inst.Of graph) (hnode : graph.nodes[p]? = some inst.node)
    (hready : inst.ReadyFor registry shapes) (hplaced : inst.Placed graph plan p)
    (htyped : pool.Typed plan) (hderives : inst.node.Derives inst.declaredInputs shapes dims) :
    Fills registry shapes inst env (inst.node.fillSlot (plan.operandPlaces graph inst.node)
      (plan.place p) shapes bindings pool) (inst.fill shapes bindings pool env) := by
  unfold fill Node.fillSlot
  cases hkind : inst.node.kind with
  | parameter => exact writeBinding_spec hready hplaced
  | constant | reshape => exact ⟨rfl, rfl, rfl, .refl inst, fun _ ↦ hready⟩
  | elementwiseBinary | elementwiseUnary | matMul | reduce | reorder =>
    exact execute_spec hsafe hof hnode hready hplaced htyped (by rw [hkind]; rfl) hderives

/-- The instance is that of a place, and can be prepared for whatever extents a visit has. -/
structure At (graph : Graph) (plan : MemoryPlan) (registry : Registry CatalogueImplementation)
    (p : Nat) (node : Node) (inst : PrimitiveInstance CatalogueImplementation) : Prop
    extends inst.Seated graph plan p node where
  usable : inst.Usable registry

theorem At.of (h : inst.At graph plan registry p node) (hnode : graph.nodes[p]? = some node) :
    inst.Of graph :=
  ⟨h.node_eq ▸ List.mem_of_getElem? hnode, h.node_eq.symm ▸ h.declared_eq⟩

theorem SamePlace.at (h : SamePlace inst inst') (hat : inst.At graph plan registry p node)
    (husable : inst'.Usable registry) : inst'.At graph plan registry p node :=
  ⟨h.seated hat.toSeated, husable⟩

end PrimitiveInstance

/-- The extents of a visit derive from those of the operands. -/
theorem Node.derives_of_concreteShapes {ι : Type} {context : ExecutionContext ι}
    {extents : List (Option Dims)} (hnode : context.graph.nodes[p]? = some node)
    (h : context.concreteShapes node extents = .ok shapes) :
    ∃ dims, node.Derives (context.graph.inputLayouts node) shapes dims := by
  obtain ⟨inputs, dims, rfl, hinputs, hdims, _⟩ :=
    (ExecutionContext.concreteShapes_eq_ok_iff hnode).1 h
  refine ⟨dims, ?_, rfl, ?_⟩
  · rw [← hinputs.length_eq, Graph.length_producers hnode, Graph.length_inputLayouts hnode]
  · rcases eq_or_ne node.kind .parameter with hkind | hkind
    · exact .inl hkind
    · exact .inr ((ExecutionContext.resultDims_eq_ok_iff hkind).1 hdims)

namespace ExecutionState

/-- Every place has an instance that can be prepared, what is cached is sound, and the slots have
the types of the plan. -/
structure Fit (graph : Graph) (plan : MemoryPlan) (registry : Registry CatalogueImplementation)
    (state : ExecutionState CatalogueImplementation Environment) : Prop where
  length_instances : state.instances.length = graph.size
  exists_instance : ∀ {p : Nat} {node : Node}, graph.nodes[p]? = some node →
    ∃ inst, state.instances[p]? = some inst ∧ inst.At graph plan registry p node
  workspace : state.workspace.Sound graph registry
  typed : state.pool.Typed plan

variable {state : ExecutionState CatalogueImplementation Environment}

/-- Another instance of a place that can be prepared may take the place. -/
theorem Fit.replace (hfit : state.Fit graph plan registry) (hnode : graph.nodes[p]? = some node)
    {inst : PrimitiveInstance CatalogueImplementation} {pool : MemoryPool}
    {workspace : Workspace CatalogueImplementation Environment}
    (hat : inst.At graph plan registry p node) (htyped : pool.Typed plan)
    (hworkspace : workspace.Sound graph registry) (extents : List (Option Dims)) :
    ExecutionState.Fit graph plan registry
      ⟨state.instances.set p inst, pool, extents, workspace⟩ := by
  refine ⟨by rw [List.length_set, hfit.length_instances], fun {q other} hother ↦ ?_, hworkspace,
    htyped⟩
  rcases eq_or_ne p q with rfl | hne
  · obtain rfl := Option.some.inj (hnode.symm.trans hother)
    have hlt := Graph.lt_size hnode
    rw [← hfit.length_instances] at hlt
    exact ⟨inst, List.getElem?_set_self hlt, hat⟩
  · rw [List.getElem?_set_ne hne]
    exact hfit.exists_instance hother

/-- A visit does to the slots what the reference kernel of the node would do, and leaves instances
that can be prepared again. -/
theorem visit_spec (context : ExecutionContext CatalogueImplementation)
    (hexact : context.specialize.registry.Exact)
    (hdevice : context.specialize.device.enables .reference = true)
    (hsafe : plan.Safe context.graph streams)
    (hfit : state.Fit context.graph plan context.specialize.registry) (p : Nat) :
    let answer := state.visit context p
    let expected := state.slots.visit context plan p
    answer.1 = expected.1 ∧ answer.2.slots = expected.2 ∧
      (Harmless expected.1 → answer.2.Fit context.graph plan context.specialize.registry) := by
  obtain ⟨graph, ⟨registry, device⟩, bindings⟩ := context
  simp only at hexact hdevice hsafe hfit ⊢
  cases hnode : graph.nodes[p]? with
  | none =>
    have hnone : state.instances[p]? = none := by
      rw [List.getElem?_eq_none_iff] at hnode ⊢
      rw [hfit.length_instances]
      exact hnode
    simp only [visit, Slots.visit, hnone, hnode]
    exact ⟨trivial, trivial, fun _ ↦ hfit⟩
  | some node =>
    obtain ⟨inst, hinst, hat⟩ := hfit.exists_instance hnode
    obtain rfl := hat.node_eq
    have hof := hat.of hnode
    simp only [visit, Slots.visit, hinst, hnode, pool_slots, extents_slots]
    cases hshapes : (⟨graph, ⟨registry, device⟩, bindings⟩ :
        ExecutionContext CatalogueImplementation).concreteShapes inst.node state.extents with
    | error error => exact ⟨rfl, rfl, fun _ ↦ hfit⟩
    | ok shapes =>
      obtain ⟨dims, hderives⟩ := Node.derives_of_concreteShapes hnode hshapes
      rw [← hat.declared_eq] at hderives
      have hout : shapes.outputs.length = inst.node.outputs.length := by
        rw [hderives.outputs_eq, (Graph.fits hnode).outputs_eq]
        rfl
      have hprepares := PrimitiveInstance.prepare_spec device hexact hof hat.usable hfit.workspace
        hderives.length_inputs hout
      obtain ⟨transition, htransition⟩ := PrimitiveInstance.exists_ok_of_usable state.workspace
        hexact hdevice hof hat.usable hderives
      simp only
      generalize inst.prepare shapes ⟨registry, device⟩ state.workspace = prepared
        at hprepares htransition
      obtain ⟨result, inst', workspace'⟩ := prepared
      obtain rfl : result = .ok transition := htransition
      have hsame := hprepares.same
      have hat' := hsame.at hat (.ready (hprepares.ready transition rfl))
      have hnode' : graph.nodes[p]? = some inst'.node := by rw [hnode, hsame.node_eq]
      have hderives' : inst'.node.Derives inst'.declaredInputs shapes dims := by
        rw [hsame.node_eq, hsame.declared_eq]
        exact hderives
      have hfills := PrimitiveInstance.fill_spec bindings workspace'.environment
        hsafe (hat'.of hnode) hnode' (hprepares.ready transition rfl)
        hat'.placed hfit.typed hderives'
      rw [hsame.node_eq] at hfills
      have htouches : state.pool.Touches (plan.place p)
          (inst.node.fillSlot (plan.operandPlaces graph inst.node) (plan.place p) shapes bindings
            state.pool).2 := Node.touches_fillSlot
      simp only
      generalize inst'.fill shapes bindings state.pool workspace'.environment = filled at hfills
      generalize inst.node.fillSlot (plan.operandPlaces graph inst.node) (plan.place p) shapes
        bindings state.pool = expected at hfills htouches
      obtain ⟨result', pool'⟩ := expected
      obtain ⟨result, inst'', pool, env⟩ := filled
      obtain ⟨rfl, rfl, rfl, hsame', hready⟩ := hfills
      have hfit' : Harmless result → ∀ extents, ExecutionState.Fit graph plan registry
          ⟨state.instances.set p inst'', pool, extents,
            workspace'.withEnvironment workspace'.environment⟩ := fun hharmless ↦
        hfit.replace hnode (hsame'.at hat' (.ready (hready hharmless))) (htouches.typed hfit.typed)
          (hprepares.sound.withEnvironment hprepares.sound.trusts)
      cases result with
      | error error => exact ⟨rfl, rfl, fun hharmless ↦ hfit' hharmless _⟩
      | ok _ => exact ⟨rfl, rfl, fun hharmless ↦ hfit' hharmless _⟩

/-! ## Runs -/

/-- A run that is not cancelled does to the slots what the visits of its places do. -/
theorem visitAll_spec (context : ExecutionContext CatalogueImplementation)
    (hexact : context.specialize.registry.Exact)
    (hdevice : context.specialize.device.enables .reference = true)
    (hsafe : plan.Safe context.graph streams) (order : List Nat) :
    ∀ (completed : Nat) (state : ExecutionState CatalogueImplementation Environment),
      state.Fit context.graph plan context.specialize.registry →
        let answer := state.visitAll context Program.never completed order
        let expected := state.slots.visitAll context plan order
        answer.1 = expected.1 ∧ answer.2.slots = expected.2 ∧
          (Harmless expected.1 → answer.2.Fit context.graph plan context.specialize.registry) := by
  induction order with
  | nil => exact fun _ state hfit ↦ ⟨rfl, rfl, fun _ ↦ hfit⟩
  | cons p order ih =>
    intro completed state hfit
    obtain ⟨hresult, hslots, hfit'⟩ := visit_spec context hexact hdevice hsafe hfit p
    simp only [visitAll, Slots.visitAll, Program.never, Bool.false_eq_true, if_false]
    generalize state.visit context p = answer at hresult hslots hfit'
    generalize state.slots.visit context plan p = expected at hresult hslots hfit'
    obtain ⟨result, state'⟩ := answer
    obtain ⟨result', slots'⟩ := expected
    obtain rfl : result = result' := hresult
    obtain rfl : state'.slots = slots' := hslots
    cases result with
    | error error => exact ⟨rfl, rfl, hfit'⟩
    | ok _ => exact ih (completed + 1) state' (hfit' (harmless_ok _))

/-- What every visit preserves of the slots is preserved by a run, also by one that is
cancelled. -/
theorem visitAll_preserves (context : ExecutionContext CatalogueImplementation)
    (cancelled : Nat → Environment → Bool) (hexact : context.specialize.registry.Exact)
    (hdevice : context.specialize.device.enables .reference = true)
    (hsafe : plan.Safe context.graph streams) {motive : Slots → Prop}
    (hstep : ∀ slots p, motive slots → motive (slots.visit context plan p).2) (order : List Nat) :
    ∀ (completed : Nat) (state : ExecutionState CatalogueImplementation Environment),
      state.Fit context.graph plan context.specialize.registry → motive state.slots →
        let answer := state.visitAll context cancelled completed order
        motive answer.2.slots ∧
          (Harmless answer.1 → answer.2.Fit context.graph plan context.specialize.registry) := by
  induction order with
  | nil => exact fun _ state hfit hmotive ↦ ⟨hmotive, fun _ ↦ hfit⟩
  | cons p order ih =>
    intro completed state hfit hmotive
    obtain ⟨hresult, hslots, hfit'⟩ := visit_spec context hexact hdevice hsafe hfit p
    have hmotive' := hstep _ p hmotive
    rw [← hslots] at hmotive'
    rw [← hresult] at hfit'
    simp only [visitAll]
    split
    · exact ⟨hmotive, fun _ ↦ hfit⟩
    · generalize state.visit context p = answer at hmotive' hfit'
      obtain ⟨result, state'⟩ := answer
      cases result with
      | error error => exact ⟨hmotive', hfit'⟩
      | ok _ => exact ih (completed + 1) state' (hfit' (harmless_ok _)) hmotive'

end ExecutionState

end TensorEngine
