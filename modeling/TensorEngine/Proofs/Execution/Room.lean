import TensorEngine.Proofs.Execution.Simulation
import TensorEngine.Proofs.Memory.Capacity
import TensorEngine.Proofs.Stream.Interleaving

/-!
# Runs within planned capacities

Where every slot has a capacity, no visit needs more room than its slot has from the start: the
extents of a visit are within the declared shape of its node, and the capacity of the slot covers
that shape.  So the bytes that are held stay as they were planned, and memory is never refused.
Whether a visit succeeds plays no part in this, so it also holds of streams that go on after a
failure.
-/

namespace TensorEngine

variable {ι ω : Type} {graph : Graph} {plan : MemoryPlan} {pool : MemoryPool} {node : Node}
  {bindings : Bindings} {shapes : ConcreteShapes} {dims : Dims} {data : TensorData} {p slot : Nat}
  {error : RuntimeError}

theorem not_refused_ok {α : Type} (a : α) : ¬Refused (.ok a) := nofun

/-- Writing back keeps the slots at their capacities. -/
theorem MemoryPool.AsPlanned.writeBack (h : pool.AsPlanned plan) (outputs : List TensorData) :
    (PrimitiveInstance.writeBack pool slot outputs).AsPlanned plan := by
  unfold PrimitiveInstance.writeBack
  split
  · rename_i hdata _
    exact h.set hdata TensorData.size_overwrite
  · exact h

/-- Extents that a visit cannot have are not a matter of memory. -/
theorem ExecutionContext.not_refused_concreteShapes {context : ExecutionContext ι}
    {extents : List (Option Dims)} : ¬Refused (context.concreteShapes node extents) := by
  rintro ⟨requested, place, reason, h⟩
  unfold concreteShapes at h
  rcases bind_eq_error_iff.1 h with h | ⟨inputs, _, h⟩
  · obtain ⟨input, _, h⟩ := mapM_eq_error h
    split at h <;> cases h
  · rcases bind_eq_error_iff.1 h with h | ⟨output, _, h⟩
    · unfold resultDims at h
      split at h
      · split at h <;> cases h
      · obtain ⟨_, _, h⟩ := mapError_eq_error_iff.1 h
        cases h
    · split at h <;> cases h

namespace PrimitiveInstance

variable {inst inst' : PrimitiveInstance ι}

/-! ## Preparing -/

section

variable [Implementation ι ω] {registry : Registry ι} {device : DeviceCaps}
  {workspace : Workspace ι ω}

/-- A change to other extents is given up for no reason of memory. -/
theorem GivesUp.not_refused (h : inst.GivesUp registry device shapes error) :
    ¬Refused (.error error : Except RuntimeError Unit) := by
  rintro ⟨requested, place, reason, herror⟩
  obtain rfl := Except.error.inj herror
  cases h with
  | unmatched hcandidates =>
    unfold Registry.candidates at hcandidates
    split at hcandidates <;> cases hcandidates

/-- What every preparation does, whatever state it finds the instance in. -/
structure Leaves {α : Type} (inst : PrimitiveInstance ι)
    (answer : Except RuntimeError α × PrimitiveInstance ι × Workspace ι ω) : Prop where
  same : inst.SamePlace answer.2.1
  ready : ∀ a, answer.1 = .ok a → answer.2.1.state = .ready
  not_refused : ¬Refused answer.1

theorem Specializes.leaves {α : Type}
    {answer : Except RuntimeError α × PrimitiveInstance ι × Workspace ι ω}
    (h : inst.Specializes registry device shapes workspace answer) : inst.Leaves answer := by
  cases h with
  | cached _ _ _ _ hsame hstate => exact ⟨hsame, fun _ _ ↦ hstate, nofun⟩
  | changed h =>
    cases h with
    | made _ _ hsame hstate => exact ⟨hsame, fun _ _ ↦ hstate, nofun⟩
    | failed _ _ hsame _ hwhy =>
      refine ⟨hsame, nofun, ?_⟩
      rintro ⟨requested, place, reason, herror⟩
      exact hwhy.not_refused ⟨requested, place, reason, congrArg _ (Except.error.inj herror)⟩

/-- Whatever state it finds the instance in, a preparation leaves it at its place, ready when it
succeeds, and is not refused memory. -/
theorem leaves_prepare (inst : PrimitiveInstance ι) (shapes : ConcreteShapes)
    (context : SpecializeContext ι) (workspace : Workspace ι ω) :
    inst.Leaves (inst.prepare shapes context workspace) := by
  obtain ⟨registry, device⟩ := context
  have hspecialize : ∀ state, inst.Leaves
      ((inst.withState state).specialize shapes ⟨registry, device⟩ workspace) := by
    intro state
    have hspecializes : inst.Specializes registry device shapes workspace
        ((inst.withState state).specialize shapes ⟨registry, device⟩ workspace) :=
      (specializes_specialize registry device (inst.withState state) shapes
        workspace).of_samePlace ⟨rfl, rfl, rfl, rfl⟩ rfl
    exact hspecializes.leaves
  have hrefuse : ∀ {error : RuntimeError} {inst' : PrimitiveInstance ι}
      {workspace' : Workspace ι ω},
      inst.Leaves ((.error error : Except RuntimeError Bool), inst', workspace') →
      inst.Leaves ((.error error : Except RuntimeError Transition), inst', workspace') := by
    intro error inst' workspace' h
    refine ⟨h.same, nofun, ?_⟩
    rintro ⟨requested, place, reason, herror⟩
    exact h.not_refused ⟨requested, place, reason, congrArg _ (Except.error.inj herror)⟩
  unfold prepare
  cases hstate : inst.state with
  | ready | stale =>
    simp only
    split
    · rename_i hunchanged
      exact ⟨.refl inst, fun _ _ ↦ by simp_all, not_refused_ok _⟩
    · have hleaves := hspecialize .stale
      generalize (inst.withState .stale).specialize shapes ⟨registry, device⟩ workspace = answer
        at hleaves
      obtain ⟨error | reselected, inst', workspace'⟩ := answer
      · exact hrefuse hleaves
      · exact ⟨hleaves.same.trans ⟨rfl, rfl, rfl, rfl⟩, fun _ _ ↦ hleaves.ready _ rfl,
          not_refused_ok _⟩
  | bound =>
    have hleaves := hspecialize .bound
    rw [withState, ← hstate] at hleaves
    simp only
    generalize inst.specialize shapes ⟨registry, device⟩ workspace = answer at hleaves
    obtain ⟨error | reselected, inst', workspace'⟩ := answer
    · exact hrefuse hleaves
    · exact ⟨hleaves.same, fun _ _ ↦ hleaves.ready _ rfl, not_refused_ok _⟩
  | failed | unbound | executing => exact ⟨.refl inst, nofun, nofun⟩

end

/-! ## Filling slots -/

/-- A value within its declared shape is bound without a request for memory. -/
theorem asPlanned_writeBinding (hpool : pool.AsPlanned plan) (hample : plan.Ample graph)
    (hseated : inst.Seated graph plan p node) (hnode : graph.nodes[p]? = some node)
    (hbindings : bindings.WellFormed)
    (haccepts : ∀ binding, bindings node.id = some binding →
      node.output.shape.accepts binding.dims) :
    let answer := inst.writeBinding bindings pool
    answer.2.2.AsPlanned plan ∧ ¬Refused answer.1 := by
  have hslot : inst.resultSlot = .ok (plan.place p) := by
    rw [resultSlot, hseated.placed.outputSlot_eq]
  unfold writeBinding
  rw [hslot, hseated.node_eq]
  cases hbinding : bindings node.id with
  | none =>
    refine ⟨hpool, ?_⟩
    rintro ⟨_, _, _, herror⟩
    cases herror
  | some binding =>
    have hroom := hpool.ensureCapacity_place hample hnode (haccepts binding hbinding)
      (hbindings _ _ hbinding)
    obtain ⟨slot, hplanned, _⟩ := hample hnode
    obtain ⟨data, hdata, _⟩ := hpool.exists_data hplanned
    simp only [reserve, hroom, copyBinding, MemoryPool.read_eq_ok_iff.2 hdata, Except.mapError,
      ok_bind]
    cases hcopy : data.copyFrom binding.data with
    | error error =>
      refine ⟨hpool, ?_⟩
      rintro ⟨_, _, _, herror⟩
      cases herror
    | ok data' =>
      obtain ⟨_, _, rfl⟩ := TensorData.copyFrom_eq_ok_iff.1 hcopy
      exact ⟨hpool.set hdata TensorData.size_overwrite, not_refused_ok ()⟩

variable [Implementation ι ω] {env : ω}

theorem asPlanned_runKernel (inst : PrimitiveInstance ι) (shapes : ConcreteShapes) (env : ω)
    (hpool : pool.AsPlanned plan) :
    (inst.runKernel shapes pool env).2.1.AsPlanned plan := by
  unfold runKernel
  split
  · exact hpool
  · exact hpool.writeBack _

/-- An implementation runs within the room of its slot. -/
theorem asPlanned_execute (hpool : pool.AsPlanned plan) (hample : plan.Ample graph)
    (hseated : inst.Seated graph plan p node) (hnode : graph.nodes[p]? = some node)
    (haccepts : node.output.shape.accepts (shapes.outputs.headD [])) :
    let answer := inst.execute shapes pool env
    answer.2.2.1.AsPlanned plan ∧ ¬Refused answer.1 := by
  have hslot : inst.resultSlot = .ok (plan.place p) := by
    rw [resultSlot, hseated.placed.outputSlot_eq]
  simp only [execute, target]
  cases hcount : elementCount? (shapes.outputs.headD []) with
  | none =>
    refine ⟨hpool, ?_⟩
    rintro ⟨_, _, _, herror⟩
    cases herror
  | some count =>
    have hroom := hpool.ensureCapacity_place hample hnode haccepts hcount
    simp only [hslot, ok_bind, pure_eq_ok, reserve, hroom]
    by_cases hstate : inst.state = .ready
    · have hran := asPlanned_runKernel (inst.withState .executing) shapes env hpool
      simp only [beginExecute, hstate, if_true]
      generalize (inst.withState .executing).runKernel shapes pool env = answer at hran
      obtain ⟨source | _, pool', env'⟩ := answer
      · refine ⟨hran, ?_⟩
        rintro ⟨_, _, _, herror⟩
        cases herror
      · exact ⟨hran, not_refused_ok ()⟩
    · simp only [beginExecute, hstate, if_false]
      refine ⟨hpool, ?_⟩
      rintro ⟨_, _, _, herror⟩
      cases herror

theorem asPlanned_fill (shapes : ConcreteShapes) (env : ω) (hpool : pool.AsPlanned plan)
    (hample : plan.Ample graph) (hseated : inst.Seated graph plan p node)
    (hnode : graph.nodes[p]? = some node) (hbindings : bindings.WellFormed)
    (haccepts : node.output.shape.accepts (shapes.outputs.headD []))
    (hbound : node.kind = .parameter → ∀ binding, bindings node.id = some binding →
      binding.dims = shapes.outputs.headD []) :
    let answer := inst.fill shapes bindings pool env
    answer.2.2.1.AsPlanned plan ∧ ¬Refused answer.1 := by
  unfold fill
  rw [hseated.node_eq]
  cases hkind : node.kind with
  | parameter =>
    exact asPlanned_writeBinding hpool hample hseated hnode hbindings fun binding hbinding ↦
      (hbound hkind binding hbinding).symm ▸ haccepts
  | constant | reshape => exact ⟨hpool, nofun⟩
  | elementwiseBinary | elementwiseUnary | matMul | reduce | reorder =>
    exact asPlanned_execute hpool hample hseated hnode haccepts

end PrimitiveInstance

/-! ## Visits -/

namespace ExecutionState

variable {state : ExecutionState ι ω} {context : ExecutionContext ι}

/-- Every place has an instance with its slots, and the slots are as planned. -/
structure Provided (state : ExecutionState ι ω) (graph : Graph) (plan : MemoryPlan) : Prop where
  exists_instance : ∀ {p : Nat} {node : Node}, graph.nodes[p]? = some node →
    ∃ inst, state.instances[p]? = some inst ∧ inst.Seated graph plan p node
  length_instances : state.instances.length = graph.size
  pool : state.pool.AsPlanned plan

/-- Another instance at a place. -/
theorem Provided.replace (h : state.Provided graph plan) (hnode : graph.nodes[p]? = some node)
    {inst : PrimitiveInstance ι} (hseated : inst.Seated graph plan p node)
    (hpool : pool.AsPlanned plan) {extents : List (Option Dims)} {workspace : Workspace ι ω} :
    Provided ⟨state.instances.set p inst, pool, extents, workspace⟩ graph plan := by
  refine ⟨fun {q other} hother ↦ ?_, by rw [List.length_set, h.length_instances], hpool⟩
  rcases eq_or_ne p q with rfl | hne
  · obtain rfl := Option.some.inj (hnode.symm.trans hother)
    have hlt := Graph.lt_size hnode
    rw [← h.length_instances] at hlt
    exact ⟨inst, List.getElem?_set_self hlt, hseated⟩
  · rw [List.getElem?_set_ne hne]
    exact h.exists_instance hother

variable [Implementation ι ω]

/-- A visit keeps the slots as planned, and is not refused memory. -/
theorem Provided.visit (h : state.Provided context.graph plan) (hample : plan.Ample context.graph)
    (hbindings : context.bindings.WellFormed) (p : Nat) :
    (state.visit context p).2.Provided context.graph plan ∧ ¬Refused (state.visit context p).1 := by
  unfold ExecutionState.visit
  cases hinst : state.instances[p]? with
  | none => exact ⟨h, not_refused_ok ()⟩
  | some inst =>
    have hlt := (List.getElem?_eq_some_iff.1 hinst).1
    rw [h.length_instances] at hlt
    obtain ⟨node, hnode⟩ := Graph.exists_node hlt
    obtain ⟨other, hother, hseated⟩ := h.exists_instance hnode
    obtain rfl := Option.some.inj (hinst.symm.trans hother)
    simp only [hseated.node_eq]
    cases hshapes : context.concreteShapes node state.extents with
    | error error =>
      refine ⟨h, ?_⟩
      rintro ⟨requested, slot, reason, herror⟩
      exact ExecutionContext.not_refused_concreteShapes
        ⟨requested, slot, reason, hshapes.trans (congrArg _ (Except.error.inj herror))⟩
    | ok shapes =>
      have hleaves := inst.leaves_prepare shapes context.specialize state.workspace
      simp only
      generalize inst.prepare shapes context.specialize state.workspace = answer at hleaves
      obtain ⟨error | transition, inst', workspace⟩ := answer
      · have hseated' : inst'.Seated context.graph plan p node := hleaves.same.seated hseated
        have hfailed : inst'.SamePlace inst'.markFailed := ⟨rfl, rfl, rfl, rfl⟩
        refine ⟨h.replace hnode ?_ h.pool, ?_⟩
        · split
          · exact hfailed.seated hseated'
          · exact hseated'
        · rintro ⟨requested, slot, reason, herror⟩
          exact hleaves.not_refused ⟨requested, slot, reason, congrArg _ (Except.error.inj herror)⟩
      · have hseated' : inst'.Seated context.graph plan p node := hleaves.same.seated hseated
        obtain ⟨inputs, dims, rfl, _, hdims, haccepts⟩ :=
          (ExecutionContext.concreteShapes_eq_ok_iff hnode).1 hshapes
        have hfill := PrimitiveInstance.asPlanned_fill ⟨inputs, [dims]⟩ workspace.environment
          h.pool hample hseated' hnode hbindings haccepts fun hkind binding hbinding ↦ by
            rw [ExecutionContext.resultDims, if_pos hkind, hbinding] at hdims
            exact Except.ok.inj hdims
        have hframe := PrimitiveInstance.fillFrame_fill ⟨inputs, [dims]⟩ context.bindings
          state.pool workspace.environment (hleaves.ready transition rfl)
          hseated'.placed.outputSlot_eq
        simp only
        generalize inst'.fill ⟨inputs, [dims]⟩ context.bindings state.pool workspace.environment =
          answer at hfill hframe
        obtain ⟨error | _, inst'', pool, env⟩ := answer
        · refine ⟨h.replace hnode (hframe.same.seated hseated') hfill.1, ?_⟩
          exact hfill.2
        · exact ⟨h.replace hnode (hframe.same.seated hseated') hfill.1, not_refused_ok ()⟩

/-- Neither does a run over places in any order, whenever it is cancelled. -/
theorem Provided.visitAll (hample : plan.Ample context.graph)
    (hbindings : context.bindings.WellFormed) (cancelled : Nat → ω → Bool) (order : List Nat) :
    ∀ (completed : Nat) (state : ExecutionState ι ω), state.Provided context.graph plan →
      let answer := state.visitAll context cancelled completed order
      answer.2.Provided context.graph plan ∧ ¬Refused answer.1 := by
  induction order with
  | nil => exact fun _ _ h ↦ ⟨h, not_refused_ok ()⟩
  | cons p order ih =>
    intro completed state h
    unfold ExecutionState.visitAll
    split
    · refine ⟨h, ?_⟩
      rintro ⟨_, _, _, herror⟩
      cases herror
    · obtain ⟨hnext, hanswer⟩ := h.visit hample hbindings p
      generalize state.visit context p = answer at hnext hanswer
      obtain ⟨error | _, state'⟩ := answer
      · exact ⟨hnext, hanswer⟩
      · exact ih (completed + 1) state' hnext

end ExecutionState

/-! ## Streams -/

namespace StreamRun

variable [Implementation ι ω] {context : ExecutionContext ι} {schedule : StreamSchedule}
  {run run' : StreamRun ι ω}

/-- The slots are as planned, and no failure is a refusal of memory. -/
structure Provided (run : StreamRun ι ω) (graph : Graph) (plan : MemoryPlan) : Prop where
  state : run.state.Provided graph plan
  not_refused : ∀ error, run.failure = some error →
    ¬Refused (.error error : Except RuntimeError Unit)

/-- No step of a stream asks for more memory, not even after a failure. -/
theorem Provided.step (h : run.Provided context.graph plan) (hample : plan.Ample context.graph)
    (hbindings : context.bindings.WellFormed) (hstep : Step context schedule run run') :
    run'.Provided context.graph plan := by
  cases hstep with
  | enter | halt | forsake => exact ⟨h.state, h.not_refused⟩
  | @complete _ _ p _ _ _ hvisit =>
    have hvisited := h.state.visit hample hbindings p
    rw [hvisit] at hvisited
    exact ⟨hvisited.1, h.not_refused⟩
  | @fail _ _ p error _ _ _ hvisit =>
    have hvisited := h.state.visit hample hbindings p
    rw [hvisit] at hvisited
    refine ⟨hvisited.1, fun other hother ↦ ?_⟩
    obtain rfl : run.failure.getD error = other := Option.some.inj hother
    cases hfirst : run.failure with
    | some first => exact h.not_refused first hfirst
    | none => exact hvisited.2

end StreamRun

end TensorEngine
