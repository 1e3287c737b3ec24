import TensorEngine.Proofs.Execution.Visit

/-!
# Visits that succeed

Implementations that may fail where the reference kernel does not, but compute what it computes
whenever they succeed, serve as well: a visit that succeeds does to the slots what `Slots.visit`
says, and so does a run that succeeds.
-/

namespace TensorEngine

open CatalogueImplementation

variable {ι ω : Type} [Implementation ι ω] {standard : Standard ι ω} {graph : Graph}
  {plan : MemoryPlan} {streams p : Nat} {node : Node} {shapes : ConcreteShapes} {dims : Dims}
  {pool : MemoryPool}

/-- Forms that are up to the standard leave what the reference kernel computes, whenever they
succeed. -/
def Standard.Computes (standard : Standard ι ω) (graph : Graph) : Prop :=
  ∀ {node : Node} {shapes : ConcreteShapes} {entry : FinalizedImplementation ι}
    {inputs : List TensorView} {out : TensorView} {env : ω},
    standard.form node shapes entry →
    Arguments node (graph.inputLayouts node) shapes inputs out →
    let answer := Implementation.execute entry.bound.implementation inputs [out] env
    answer.1 = .ok () → ∃ data, answer.2.1 = [data] ∧
      ReferenceImplementation.run (.ofOp node.op) inputs out = ⟨.ok (), data⟩

namespace PrimitiveInstance

variable {inst : PrimitiveInstance ι}

/-- A run that succeeds leaves what the reference kernel computes. -/
theorem runReference_eq_ok (env : ω) (hcomputes : standard.Computes graph)
    (hsafe : plan.Safe graph streams) (hnode : graph.nodes[p]? = some node)
    (hseated : inst.Seated graph plan p node) (hready : standard.Ready shapes inst)
    (htyped : pool.Typed plan) (hkind : node.kind.isExecutable = true)
    (hderives : node.Derives (graph.inputLayouts node) shapes dims)
    (h : (inst.runKernel shapes pool env).1 = .ok ()) :
    node.runReference (plan.operandPlaces graph node) (plan.place p) shapes pool =
      (.ok (), (inst.runKernel shapes pool env).2.1) := by
  obtain rfl := hseated.node_eq
  obtain ⟨entry, hbound, _, hruns⟩ := hready.entry
  have himpl : inst.implementation? = some entry.bound.implementation := by
    rw [implementation?, hbound, Option.map_some]
  unfold runKernel at h ⊢
  rw [dispatch_eq himpl hseated.placed (hsafe.place_notMem hnode hkind)] at h ⊢
  unfold Node.runReference
  cases harguments : pool.arguments (plan.operandPlaces graph inst.node) (plan.place p) shapes with
  | error error =>
    rw [harguments] at h
    cases h
  | ok answer =>
    obtain ⟨views, out⟩ := answer
    rw [harguments] at h
    simp only [Except.map] at h ⊢
    rw [mapError_eq_ok_iff] at h
    obtain ⟨data, hdata, hrun⟩ := hcomputes hruns
      (arguments_spec hsafe hnode htyped (OperationKind.ne_parameter_of_isExecutable hkind) hderives
        harguments) h
    rw [hdata, hrun]
    rfl

/-- Filling the slot of an executable node, when it succeeds. -/
theorem fillComputed_eq_ok (env : ω) (hcomputes : standard.Computes graph)
    (hsafe : plan.Safe graph streams) (hnode : graph.nodes[p]? = some node)
    (hseated : inst.Seated graph plan p node) (hready : standard.Ready shapes inst)
    (htyped : pool.Typed plan) (hkind : node.kind.isExecutable = true)
    (hderives : node.Derives (graph.inputLayouts node) shapes dims)
    (h : (inst.execute shapes pool env).1 = .ok ()) :
    node.fillComputed (plan.operandPlaces graph node) (plan.place p) shapes pool =
      (.ok (), (inst.execute shapes pool env).2.2.1) := by
  have hslot : inst.resultSlot = .ok (plan.place p) := by
    rw [resultSlot, hseated.placed.outputSlot_eq]
  simp only [execute, Node.fillComputed, target] at h ⊢
  cases hcount : elementCount? (shapes.outputs.headD []) with
  | none =>
    rw [hcount] at h
    cases h
  | some count =>
    simp only [hcount, hslot, ok_bind, pure_eq_ok, reserve] at h ⊢
    cases hroom : pool.ensureCapacity (plan.place p) count with
    | error error =>
      rw [hroom] at h
      cases h
    | ok answer =>
      obtain ⟨grew, pool'⟩ := answer
      have htouches := MemoryPool.touches_ensureCapacity hroom
      simp only [hroom, beginExecute, hready.state_eq, if_true] at h ⊢
      have hrun : (inst.withState .executing).runKernel shapes pool' env =
        inst.runKernel shapes pool' env := rfl
      rw [hrun] at h ⊢
      have hresult := runReference_eq_ok env hcomputes hsafe hnode hseated hready
        (htouches.typed htyped) hkind hderives
      generalize inst.runKernel shapes pool' env = answer at h hresult ⊢
      obtain ⟨_ | _, pool'', env'⟩ := answer
      · cases h
      · exact hresult rfl

/-- Filling a slot, when it succeeds. -/
theorem fillSlot_eq_ok (bindings : Bindings) (env : ω) (hcomputes : standard.Computes graph)
    (hsafe : plan.Safe graph streams) (hnode : graph.nodes[p]? = some node)
    (hseated : inst.Seated graph plan p node) (hready : standard.Ready shapes inst)
    (htyped : pool.Typed plan) (hderives : node.Derives (graph.inputLayouts node) shapes dims)
    (h : (inst.fill shapes bindings pool env).1 = .ok ()) :
    node.fillSlot (plan.operandPlaces graph node) (plan.place p) shapes bindings pool =
      (.ok (), (inst.fill shapes bindings pool env).2.2.1) := by
  unfold fill at h ⊢
  unfold Node.fillSlot
  have hfill := inst.fillBinding_eq bindings pool hseated.placed.outputSlot_eq
  rw [hseated.node_eq] at h hfill ⊢
  cases hkind : node.kind with
  | parameter =>
    rw [hkind] at h
    simp only at h ⊢
    rw [hfill, h]
  | constant | reshape => rfl
  | elementwiseBinary | elementwiseUnary | matMul | reduce | reorder =>
    rw [hkind] at h
    exact fillComputed_eq_ok env hcomputes hsafe hnode hseated hready htyped (by rw [hkind]; rfl)
      hderives h

end PrimitiveInstance

namespace ExecutionState

variable {context : ExecutionContext ι} {state state' : ExecutionState ι ω}

/-- A visit that succeeds does to the slots what the reference kernel of the node does. -/
theorem Visited.slots_eq (h : Visited standard context plan state p (.ok (), state'))
    (hcomputes : standard.Computes context.graph) (hsafe : plan.Safe context.graph streams)
    (htyped : state.pool.Typed plan) :
    state.slots.visit context plan p = (.ok (), state'.slots) := by
  unfold Slots.visit
  generalize hanswer : ((.ok (), state') : Except RuntimeError Unit × ExecutionState ι ω) = answer
    at h
  cases h with
  | absent hnode =>
    obtain ⟨_, rfl⟩ := Prod.mk.inj hanswer
    rw [hnode]
  | unfit => cases hanswer
  | unprepared => cases hanswer
  | @filled node shapes inst inst' workspace result pool env hnode hshapes hseated hready _ hfill =>
    obtain ⟨rfl, rfl⟩ := Prod.mk.inj hanswer
    obtain ⟨dims, hderives⟩ := Node.derives_of_concreteShapes hnode hshapes
    have hslot := PrimitiveInstance.fillSlot_eq_ok context.bindings workspace.environment hcomputes
      hsafe hnode hseated hready htyped hderives
    rw [hfill] at hslot
    simp only [hnode, extents_slots, pool_slots, hshapes, hslot rfl]
    rfl

/-- Unless a run poisons the program, it leaves instances that can be prepared again; and when it
succeeds, it does to the slots what the visits of its places do. -/
theorem Upholds.visitAll (context : ExecutionContext ι)
    (hholds : standard.Holds context.graph context.specialize.registry context.specialize.device)
    (hcomputes : standard.Computes context.graph) (hsafe : plan.Safe context.graph streams)
    (order : List Nat) : ∀ (completed : Nat) (state : ExecutionState ι ω),
      state.Upholds standard context.graph plan → state.slots.Kept context.graph plan →
        let answer := state.visitAll context Program.never completed order
        answer.2.slots.Kept context.graph plan ∧
          (Harmless answer.1 → answer.2.Upholds standard context.graph plan) ∧
          (answer.1 = .ok () →
            state.slots.visitAll context plan order = (.ok (), answer.2.slots)) := by
  induction order with
  | nil => exact fun _ state hstate hkept ↦ ⟨hkept, fun _ ↦ hstate, fun _ ↦ rfl⟩
  | cons p order ih =>
    intro completed state hstate hkept
    have hvisited := hstate.visited context hholds p
    have hkept' := hvisited.kept hsafe hkept
    have hstate' := hvisited.upholds hholds hstate
    simp only [ExecutionState.visitAll, Slots.visitAll, Program.never, Bool.false_eq_true, if_false]
    generalize state.visit context p = answer at hvisited hkept' hstate'
    obtain ⟨error | _, state'⟩ := answer
    · exact ⟨hkept', hstate', fun h ↦ absurd h error_ne_ok⟩
    · rw [hvisited.slots_eq hcomputes hsafe hkept.typed]
      exact ih (completed + 1) state' (hstate' (harmless_ok _)) hkept'

end ExecutionState

end TensorEngine
