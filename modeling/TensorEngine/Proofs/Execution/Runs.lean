import TensorEngine.Proofs.Execution.Blame
import TensorEngine.Proofs.Execution.Naive

/-!
# What a run leaves

A run visits the places of a graph in order, until it is cancelled or a visit fails.  Where the
implementations at hand are up to a standard, it leaves instances that can all be prepared again, or
exactly the instance of the failed visit has failed.  After a run to the end, every instance is
ready for the extents that the graph derives from the bindings.
-/

namespace TensorEngine

variable {ι ω : Type} {plan : MemoryPlan} {p q slot : Nat} {node : Node} {shapes : ConcreteShapes}
  {bindings : Bindings} {pool : MemoryPool} {env : ω} {error : RuntimeError}

/-! ## Which failures there are -/

namespace RuntimeError

/-- Failures that bindings, extents, memory and kernels cause. -/
def OfRun : RuntimeError → Prop
  | .missingBinding .. | .shapeOutOfRange .. | .allocationFailure .. | .executionFailure ..
  | .invalidGraph .. => True
  | _ => False

/-- What a run may fail with, or a result whose extents cannot be counted. -/
def OfCall : RuntimeError → Prop
  | .panicked _ => True
  | error => error.OfRun

theorem OfRun.ofCall (h : error.OfRun) : error.OfCall := by
  cases error <;> first | exact h | trivial

end RuntimeError

/-- Extents that a visit cannot have. -/
theorem ExecutionContext.ofRun_concreteShapes {context : ExecutionContext ι}
    {extents : List (Option Dims)} (h : context.concreteShapes node extents = .error error) :
    error.OfRun := by
  unfold concreteShapes at h
  rcases bind_eq_error_iff.1 h with h | ⟨inputs, _, h⟩
  · obtain ⟨input, _, h⟩ := mapM_eq_error h
    split at h
    · cases h
    · exact Except.error.inj h ▸ trivial
  · rcases bind_eq_error_iff.1 h with h | ⟨output, _, h⟩
    · unfold resultDims at h
      split at h
      · split at h
        · cases h
        · exact Except.error.inj h ▸ trivial
      · obtain ⟨_, _, rfl⟩ := mapError_eq_error_iff.1 h
        trivial
    · split at h
      · cases h
      · exact Except.error.inj h ▸ trivial

namespace PrimitiveInstance

variable {inst : PrimitiveInstance ι}

/-- An instance with a slot can be refused nothing but memory. -/
theorem ofRun_reserve {elements : Nat} (h : (inst.reserve slot elements pool).1 = .error error) :
    error.OfRun := by
  unfold reserve at h
  split at h
  · cases h
  · exact Except.error.inj h ▸ trivial

theorem ofRun_copyBinding {binding : HostTensor}
    (h : inst.copyBinding binding slot pool = .error error) : error.OfRun := by
  unfold copyBinding at h
  rcases bind_eq_error_iff.1 h with h | ⟨_, _, h⟩
  · obtain ⟨_, _, rfl⟩ := mapError_eq_error_iff.1 h
    trivial
  · rcases bind_eq_error_iff.1 h with h | ⟨_, _, h⟩
    · obtain ⟨_, _, rfl⟩ := mapError_eq_error_iff.1 h
      trivial
    · cases h

theorem ofRun_writeBinding (hslot : inst.outputSlot = some slot)
    (h : (inst.writeBinding bindings pool).1 = .error error) : error.OfRun := by
  have hresult : inst.resultSlot = .ok slot := by rw [resultSlot, hslot]
  unfold writeBinding at h
  rw [hresult] at h
  cases hbinding : bindings inst.node.id with
  | none =>
    rw [hbinding] at h
    exact Except.error.inj h ▸ trivial
  | some binding =>
    simp only [hbinding] at h
    have hreserve : ∀ error, (inst.reserve slot binding.size pool).1 = .error error →
        error.OfRun := fun _ ↦ ofRun_reserve
    generalize inst.reserve slot binding.size pool = answer at h hreserve
    obtain ⟨refused | pool', inst'⟩ := answer
    · exact Except.error.inj h ▸ hreserve refused rfl
    · simp only at h
      cases hcopy : inst'.copyBinding binding slot pool' with
      | ok _ => simp [hcopy] at h
      | error other =>
        simp only [hcopy] at h
        exact Except.error.inj h ▸ ofRun_copyBinding hcopy

variable [Implementation ι ω]

theorem ofRun_execute (hstate : inst.state = .ready) (hslot : inst.outputSlot = some slot)
    (h : (inst.execute shapes pool env).1 = .error error) : error.OfRun := by
  have hresult : inst.resultSlot = .ok slot := by rw [resultSlot, hslot]
  simp only [execute, target] at h
  cases hcount : elementCount? (shapes.outputs.headD []) with
  | none =>
    simp only [hcount] at h
    exact Except.error.inj h ▸ trivial
  | some count =>
    simp only [hcount, hresult, ok_bind, pure_eq_ok, reserve] at h
    cases hroom : pool.ensureCapacity slot count with
    | error refused =>
      simp only [hroom] at h
      exact Except.error.inj h ▸ trivial
    | ok answer =>
      obtain ⟨_, pool'⟩ := answer
      simp only [hroom, beginExecute, hstate, if_true] at h
      generalize (inst.withState .executing).runKernel shapes pool' env = answer at h
      obtain ⟨source | _, _, _⟩ := answer
      · exact Except.error.inj h ▸ trivial
      · cases h

/-- Filling the slot of a ready instance fails for none but these reasons. -/
theorem ofRun_fill (hstate : inst.state = .ready) (hslot : inst.outputSlot = some slot)
    (h : (inst.fill shapes bindings pool env).1 = .error error) : error.OfRun := by
  unfold fill at h
  cases hkind : inst.node.kind with
  | parameter =>
    rw [hkind] at h
    exact ofRun_writeBinding hslot h
  | constant | reshape =>
    rw [hkind] at h
    cases h
  | elementwiseBinary | elementwiseUnary | matMul | reduce | reorder =>
    rw [hkind] at h
    exact ofRun_execute hstate hslot h

end PrimitiveInstance

/-! ## Places that were visited -/

namespace ExecutionState

variable {standard : Standard ι ω} {context : ExecutionContext ι} {state : ExecutionState ι ω}
  {answer : Except RuntimeError Unit × ExecutionState ι ω}

/-- The instance of a place is ready for extents that come from those of its operands. -/
def Settled (standard : Standard ι ω) (context : ExecutionContext ι) (state : ExecutionState ι ω)
    (p : Nat) : Prop :=
  ∀ node, context.graph.nodes[p]? = some node → ∃ inputs dims inst,
    List.Forall₂ (fun q dims ↦ state.extents[q]?.join = some dims) (context.graph.producers node)
      inputs ∧
    node.extents? context.bindings inputs = some dims ∧ state.extents[p]?.join = some dims ∧
    state.instances[p]? = some inst ∧ standard.Ready ⟨inputs, [dims]⟩ inst

/-- The places in front of some place are settled, and all have room for their extents. -/
structure SettledBefore (standard : Standard ι ω) (context : ExecutionContext ι)
    (state : ExecutionState ι ω) (p : Nat) : Prop where
  length_extents : state.extents.length = context.graph.size
  settled : ∀ q < p, Settled standard context state q

/-- Other extents and another instance of a place do not touch what is settled in front of it. -/
theorem Settled.set (h : Settled standard context state q) (hq : q < p)
    {inst : PrimitiveInstance ι} {extent : Option Dims} {pool : MemoryPool}
    {workspace : Workspace ι ω} : Settled standard context
      ⟨state.instances.set p inst, pool, state.extents.set p extent, workspace⟩ q := by
  intro node hnode
  obtain ⟨inputs, dims, other, hinputs, hdims, hextent, hother, hready⟩ := h node hnode
  have hkept : ∀ r, r ≤ q → (state.extents.set p extent)[r]? = state.extents[r]? := fun r hr ↦
    List.getElem?_set_ne (Nat.ne_of_gt (Nat.lt_of_le_of_lt hr hq))
  refine ⟨inputs, dims, other, ?_, hdims, ?_, ?_, hready⟩
  · refine ((List.forall₂_and_left _ _).2
      ⟨fun r hr ↦ ((Graph.edge_iff hnode).2 hr).lt, hinputs⟩).imp ?_
    rintro r dims ⟨hr, hextent⟩
    rw [hkept r (Nat.le_of_lt hr)]
    exact hextent
  · rw [hkept q (Nat.le_refl q)]
    exact hextent
  · rw [List.getElem?_set_ne (Nat.ne_of_gt hq)]
    exact hother

variable [Implementation ι ω]

/-- A visit that succeeds settles its place. -/
theorem Visited.settled (h : Visited standard context plan state p answer)
    (hstate : state.Upholds standard context.graph plan)
    (hbefore : SettledBefore standard context state p) (hok : answer.1 = .ok ()) :
    SettledBefore standard context answer.2 (p + 1) := by
  cases h with
  | absent hnode =>
    refine ⟨hbefore.length_extents, fun q hq ↦ ?_⟩
    rcases Nat.lt_succ_iff_lt_or_eq.1 hq with hlt | rfl
    · exact hbefore.settled q hlt
    · intro node hother
      rw [hnode] at hother
      cases hother
  | unfit | unprepared => cases hok
  | @filled node shapes inst inst' workspace result pool env hnode hshapes hseated hready _ hfill =>
    obtain rfl : result = .ok () := hok
    have hframe := PrimitiveInstance.fillFrame_fill shapes context.bindings state.pool
      workspace.environment hready.state_eq hseated.placed.outputSlot_eq
    rw [hfill] at hframe
    obtain ⟨inputs, dims, rfl, hinputs, hdims, _⟩ :=
      (ExecutionContext.concreteShapes_eq_ok_iff hnode).1 hshapes
    have hplace : p < state.extents.length := hbefore.length_extents ▸ Graph.lt_size hnode
    refine ⟨by rw [List.length_set, hbefore.length_extents], fun q hq ↦ ?_⟩
    rcases Nat.lt_succ_iff_lt_or_eq.1 hq with hlt | rfl
    · exact (hbefore.settled q hlt).set hlt
    · intro other hother
      obtain rfl := Option.some.inj (hnode.symm.trans hother)
      refine ⟨inputs, dims, inst', ?_, Node.extents?_iff_resultDims.2 hdims, ?_, ?_,
        hframe.ready hready (harmless_ok ())⟩
      · refine ((List.forall₂_and_left _ _).2
          ⟨fun r hr ↦ ((Graph.edge_iff hnode).2 hr).lt, hinputs⟩).imp ?_
        rintro r dims ⟨hr, hextent⟩
        rw [List.getElem?_set_ne (Nat.ne_of_gt hr)]
        exact hextent
      · simp only [List.head?_cons, List.getElem?_set_self hplace, Option.join_some]
      · rw [List.getElem?_set_self]
        rw [hstate.length_instances]
        exact Graph.lt_size hnode

/-- A preparation of a place that fails. -/
def Unprepared (standard : Standard ι ω) (context : ExecutionContext ι) (plan : MemoryPlan)
    (error : RuntimeError) : Prop :=
  ∃ (state : ExecutionState ι ω) (p : Nat) (node : Node) (inst : PrimitiveInstance ι)
    (shapes : ConcreteShapes), state.Upholds standard context.graph plan ∧
    context.graph.nodes[p]? = some node ∧ state.instances[p]? = some inst ∧
    context.concreteShapes node state.extents = .ok shapes ∧
    (inst.prepare shapes context.specialize state.workspace).1 = .error error

/-- A visit fails for a reason of the run, or because its instance cannot be prepared. -/
theorem Visited.blames (h : Visited standard context plan state p answer)
    (hstate : state.Upholds standard context.graph plan) (herror : answer.1 = .error error) :
    error.OfRun ∨ Unprepared standard context plan error := by
  cases h with
  | absent => cases herror
  | unfit hnode hshapes =>
    obtain rfl := Except.error.inj herror
    exact .inl (ExecutionContext.ofRun_concreteShapes hshapes)
  | unprepared hnode _ _ hshapes hinst hprepare =>
    obtain rfl := Except.error.inj herror
    exact .inr ⟨state, p, _, _, _, hstate, hnode, hinst, hshapes, congrArg Prod.fst hprepare⟩
  | filled hnode hshapes hseated hready _ hfill =>
    exact .inl (PrimitiveInstance.ofRun_fill hready.state_eq hseated.placed.outputSlot_eq
      ((congrArg Prod.fst hfill).trans herror))

/-- A failure to prepare an instance poisons the program. -/
theorem Unprepared.poisonsProgram (h : Unprepared standard context plan error)
    (hholds : standard.Holds context.graph context.specialize.registry
      context.specialize.device) : error.poisonsProgram = true := by
  obtain ⟨state, p, node, inst, shapes, hstate, hnode, hinst, _, herror⟩ := h
  obtain ⟨other, hother, hseated, husable⟩ := hstate.exists_instance hnode
  obtain rfl := Option.some.inj (hinst.symm.trans hother)
  obtain rfl := hseated.node_eq
  have hupheld := hholds.upheld inst.node (List.mem_of_getElem? hnode) shapes
  rw [← hseated.declared_eq] at hupheld
  exact (hupheld.prepare husable hstate.kept).poisons error herror

/-! ## Runs -/

/-- What a run over places in order leaves. -/
structure Ends (standard : Standard ι ω) (context : ExecutionContext ι) (plan : MemoryPlan)
    (stop : Nat) (answer : Except RuntimeError Unit × ExecutionState ι ω) : Prop where
  upholds : Harmless answer.1 → answer.2.Upholds standard context.graph plan
  failed : ¬Harmless answer.1 → ∃ (state : ExecutionState ι ω) (p : Nat) (node : Node)
    (inst : PrimitiveInstance ι), state.Upholds standard context.graph plan ∧
    context.graph.nodes[p]? = some node ∧ inst.node = node ∧ inst.state = .failed ∧
    answer.2.instances = state.instances.set p inst
  settled : answer.1 = .ok () → SettledBefore standard context answer.2 stop
  blames : ∀ error, answer.1 = .error error →
    error.OfRun ∨ (∃ completed, error = .aborted completed) ∨
      Unprepared standard context plan error

/-- Visiting places one after the other. -/
theorem ends_visitAll (context : ExecutionContext ι)
    (hholds : standard.Holds context.graph context.specialize.registry context.specialize.device)
    (cancelled : Nat → ω → Bool) (count : Nat) :
    ∀ (start completed : Nat) (state : ExecutionState ι ω),
      state.Upholds standard context.graph plan → SettledBefore standard context state start →
        Ends standard context plan (start + count)
          (state.visitAll context cancelled completed (List.range' start count)) := by
  induction count with
  | zero => exact fun _ _ state hstate hbefore ↦
      ⟨fun _ ↦ hstate, fun hnot ↦ absurd (harmless_ok ()) hnot, fun _ ↦ hbefore,
      fun _ h ↦ absurd h.symm error_ne_ok⟩
  | succ count ih =>
    intro start completed state hstate hbefore
    rw [List.range'_succ]
    unfold visitAll
    split
    · refine ⟨fun _ ↦ hstate, fun hnot ↦ absurd (harmless_error_iff.2 rfl) hnot,
        fun h ↦ absurd h error_ne_ok, ?_⟩
      intro error herror
      exact .inr (.inl ⟨completed, (Except.error.inj herror).symm⟩)
    · have hvisited := hstate.visited context hholds start
      have hsettled := hvisited.settled hstate hbefore
      have hupholds := hvisited.upholds hholds hstate
      have hfailed := hvisited.failed
      have hblames : ∀ error, (state.visit context start).1 = .error error →
          error.OfRun ∨ Unprepared standard context plan error := fun _ ↦ hvisited.blames hstate
      generalize state.visit context start = answer at hsettled hupholds hfailed hblames
      obtain ⟨error | _, state'⟩ := answer
      · refine ⟨hupholds, fun hnot ↦ ?_, fun h ↦ absurd h error_ne_ok, fun other hother ↦ ?_⟩
        · obtain ⟨node, inst, hnode, hinst, hstate', hinstances⟩ := hfailed hnot
          exact ⟨state, start, node, inst, hstate, hnode, hinst, hstate', hinstances⟩
        · exact (hblames other hother).imp_right .inr
      · have hrest := ih (start + 1) (completed + 1) state' (hupholds (harmless_ok _))
          (hsettled rfl)
        rwa [Nat.succ_add_eq_add_succ] at hrest

end ExecutionState

end TensorEngine
