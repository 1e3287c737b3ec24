import TensorEngine.Proofs.Execution.Traces

/-!
# Where a run stops

A run over the places in order stops in front of the first place at which it is cancelled, or at the
first place whose visit fails.  So what has happened by then is what the visits of the places in
front have done: each changes the instance and the slot of its own place only, and counts one run
when the place has an implementation to run.
-/

namespace TensorEngine

variable {ι ω : Type} [Implementation ι ω] {standard : Standard ι ω}
  {context : ExecutionContext ι} {plan : MemoryPlan} {p : Nat}

/-! ## One visit -/

namespace PrimitiveInstance

variable {inst inst' : PrimitiveInstance ι} {shapes : ConcreteShapes}
  {workspace workspace' : Workspace ι ω}

/-- Preparing an instance counts no run. -/
theorem Readies.executions_eq {result : Except RuntimeError Transition}
    (h : inst.Readies shapes workspace (result, inst', workspace')) :
    inst'.stats.executions = inst.stats.executions := by
  have hacquires : ∀ {α : Type} {result : Except RuntimeError α} {acquired : PrimitiveInstance ι},
      inst.Acquires shapes workspace (result, acquired, workspace') →
      acquired.stats.executions = inst.stats.executions := by
    intro α result acquired h
    cases h with
    | reused | installed => rfl
    | failed _ hstats => rw [hstats]
  cases h with
  | unchanged => rfl
  | first _ h => exact hacquires h
  | again _ _ h => exact stats_respecialized ▸ hacquires h
  | failed h => exact hacquires h

end PrimitiveInstance

namespace ExecutionState

variable {state : ExecutionState ι ω}
  {answer : Except RuntimeError Unit × ExecutionState ι ω}

/-- What a visit leaves alone: the instances and slots of other places.  It counts a run of the
instance of its place when it succeeds and there is an implementation to run. -/
structure Frames (plan : MemoryPlan) (state : ExecutionState ι ω) (p : Nat)
    (answer : Except RuntimeError Unit × ExecutionState ι ω) : Prop where
  instances : ∀ q, q ≠ p → answer.2.instances[q]? = state.instances[q]?
  executions : ∀ inst, state.instances[p]? = some inst →
    ∃ inst', answer.2.instances[p]? = some inst' ∧ inst'.stats.executions =
      inst.stats.executions + (inst.node.kind.isExecutable && answer.1.isOk).toNat
  touches : state.pool.Touches (plan.place p) answer.2.pool

theorem Visited.frames (h : Visited standard context plan state p answer)
    (hstate : state.Upholds standard context.graph plan) : state.Frames plan p answer := by
  have hprepares : ∀ {node : Node} {before inst : PrimitiveInstance ι} {shapes : ConcreteShapes}
      {result : Except RuntimeError Transition} {workspace : Workspace ι ω},
      context.graph.nodes[p]? = some node → state.instances[p]? = some before →
      before.prepare shapes context.specialize state.workspace = (result, inst, workspace) →
      before.node = node ∧ inst.stats.executions = before.stats.executions := by
    intro node before inst shapes result workspace hnode hbefore hprepare
    obtain ⟨other, hother, hseated, husable⟩ := hstate.exists_instance hnode
    obtain rfl := Option.some.inj (hbefore.symm.trans hother)
    have hreadies := PrimitiveInstance.readies_prepare husable.state_eq shapes context.specialize
      state.workspace
    rw [hprepare] at hreadies
    exact ⟨hseated.node_eq, hreadies.executions_eq⟩
  have hplaced : ∀ {before inst : PrimitiveInstance ι}, state.instances[p]? = some before →
      (state.instances.set p inst)[p]? = some inst := fun hbefore ↦
    List.getElem?_set_self (List.getElem?_eq_some_iff.1 hbefore).1
  cases h with
  | absent hnode =>
    refine ⟨fun _ _ ↦ rfl, fun inst hinst ↦ ?_, .refl _ _⟩
    have hlt := (List.getElem?_eq_some_iff.1 hinst).1
    rw [hstate.length_instances] at hlt
    exact absurd hlt (Nat.not_lt.2 (List.getElem?_eq_none_iff.1 hnode))
  | unfit =>
    refine ⟨fun _ _ ↦ rfl, fun inst hinst ↦ ⟨inst, hinst, ?_⟩, .refl _ _⟩
    rw [Except.isOk, Except.toBool, Bool.and_false]
    rfl
  | @unprepared node shapes error before inst workspace hnode _ _ _ hinst hprepare =>
    refine ⟨fun q hq ↦ List.getElem?_set_ne hq.symm, fun other hother ↦ ?_, .refl _ _⟩
    obtain rfl := Option.some.inj (hinst.symm.trans hother)
    refine ⟨inst.markFailed, hplaced hinst, ?_⟩
    rw [Except.isOk, Except.toBool, Bool.and_false]
    exact (hprepares hnode hinst hprepare).2
  | @filled node shapes inst inst' workspace result pool env hnode _ hseated hready _ hfill before
      transition hinst hprepare =>
    obtain ⟨rfl, hexecutions⟩ := hprepares hnode hinst hprepare
    have hslot := hseated.placed.outputSlot_eq
    have hframe := PrimitiveInstance.fillFrame_fill shapes context.bindings state.pool
      workspace.environment hready.state_eq hslot
    have hfilled := PrimitiveInstance.filled_fill shapes context.bindings state.pool
      workspace.environment hready.state_eq hslot
    rw [hfill] at hframe hfilled
    refine ⟨fun q hq ↦ List.getElem?_set_ne hq.symm, fun other hother ↦ ?_, hframe.touches⟩
    obtain rfl := Option.some.inj (hinst.symm.trans hother)
    refine ⟨inst', hplaced hinst, ?_⟩
    rw [hfilled.stats_eq, ← hexecutions, hseated.node_eq]

/-! ## The visits in front of a place -/

/-- The state that the visits of the first places leave. -/
def afterVisits (context : ExecutionContext ι) (state : ExecutionState ι ω) :
    Nat → ExecutionState ι ω
  | 0 => state
  | p + 1 => ((state.afterVisits context p).visit context p).2

/-- What the visit of a place answers after those of the places in front of it. -/
def answerAt (context : ExecutionContext ι) (state : ExecutionState ι ω) (p : Nat) :
    Except RuntimeError Unit :=
  ((state.afterVisits context p).visit context p).1

/-- The visits of the first places succeed. -/
def Passes (context : ExecutionContext ι) (state : ExecutionState ι ω) (p : Nat) : Prop :=
  ∀ q < p, state.answerAt context q = .ok ()

/-- The visit of a place is the first one to fail. -/
structure FailsFirst (context : ExecutionContext ι) (state : ExecutionState ι ω) (p : Nat)
    (error : RuntimeError) : Prop where
  passes : state.Passes context p
  answerAt_eq : state.answerAt context p = .error error

/-- The run is not cancelled in front of any of the first places. -/
def Uncancelled (context : ExecutionContext ι) (cancelled : Nat → ω → Bool)
    (state : ExecutionState ι ω) (p : Nat) : Prop :=
  ∀ q < p, cancelled q (state.afterVisits context q).workspace.environment = false

/-- Where a run over the first places stops: at the first place whose visit fails, in front of the
first place at which it is cancelled, or behind all of them. -/
inductive Stops (context : ExecutionContext ι) (cancelled : Nat → ω → Bool)
    (state : ExecutionState ι ω) (stop : Nat) :
    Except RuntimeError Unit × ExecutionState ι ω → Prop
  | failed {p : Nat} {error : RuntimeError} (hp : p < stop)
      (hfails : state.FailsFirst context p error)
      (hgoes : state.Uncancelled context cancelled (p + 1)) :
      Stops context cancelled state stop (.error error, state.afterVisits context (p + 1))
  | aborted {c : Nat} (hc : c < stop) (hpasses : state.Passes context c)
      (hgoes : state.Uncancelled context cancelled c)
      (hcancelled : cancelled c (state.afterVisits context c).workspace.environment = true) :
      Stops context cancelled state stop (.error (.aborted c), state.afterVisits context c)
  | completed (hpasses : state.Passes context stop)
      (hgoes : state.Uncancelled context cancelled stop) :
      Stops context cancelled state stop (.ok (), state.afterVisits context stop)

theorem stops_visitAll (context : ExecutionContext ι) (cancelled : Nat → ω → Bool)
    (state : ExecutionState ι ω) (count : Nat) : ∀ start, state.Passes context start →
      state.Uncancelled context cancelled start →
      Stops context cancelled state (start + count) ((state.afterVisits context start).visitAll
        context cancelled start (List.range' start count)) := by
  induction count with
  | zero => exact fun start hpasses hgoes ↦ .completed hpasses hgoes
  | succ count ih =>
    intro start hpasses hgoes
    have hlt : start < start + (count + 1) := Nat.lt_add_of_pos_right count.succ_pos
    rw [List.range'_succ]
    unfold visitAll
    cases hcancelled : cancelled start (state.afterVisits context start).workspace.environment with
    | true => exact .aborted hlt hpasses hgoes hcancelled
    | false =>
      have hgoes' : state.Uncancelled context cancelled (start + 1) := fun q hq ↦
        (Nat.lt_succ_iff_lt_or_eq.1 hq).elim (hgoes q) fun h ↦ h ▸ hcancelled
      simp only [Bool.false_eq_true, if_false]
      generalize hvisit : (state.afterVisits context start).visit context start = answer
      have hanswer : state.answerAt context start = answer.1 := congrArg Prod.fst hvisit
      have hafter : state.afterVisits context (start + 1) = answer.2 := congrArg Prod.snd hvisit
      obtain ⟨error | _, state'⟩ := answer
      · have hfailed := Stops.failed hlt ⟨hpasses, hanswer⟩ hgoes'
        rwa [hafter] at hfailed
      · have hrest := ih (start + 1) (fun q hq ↦
          (Nat.lt_succ_iff_lt_or_eq.1 hq).elim (hpasses q) fun h ↦ h ▸ hanswer) hgoes'
        rwa [hafter, Nat.succ_add_eq_add_succ] at hrest

/-- A run stops at one of these places. -/
theorem stops_run (context : ExecutionContext ι) (cancelled : Nat → ω → Bool)
    (state : ExecutionState ι ω) :
    Stops context cancelled state context.graph.size (state.run context cancelled) := by
  have hstops := stops_visitAll context cancelled state context.graph.size 0
    (fun _ hq ↦ absurd hq (Nat.not_lt_zero _)) fun _ hq ↦ absurd hq (Nat.not_lt_zero _)
  rw [Nat.zero_add, ← List.range_eq_range'] at hstops
  exact hstops

/-! ## What the visits have done -/

/-- Instances and slots after some places were touched, of which those in front of another one were
completed: nothing else has happened than to these places, and the completed ones count a run when
they have an implementation to run. -/
structure Progressed (plan : MemoryPlan) (completed touched : Nat)
    (instances : List (PrimitiveInstance ι)) (pool : MemoryPool)
    (instances' : List (PrimitiveInstance ι)) (pool' : MemoryPool) : Prop where
  instances_eq : ∀ q, touched ≤ q → instances'[q]? = instances[q]?
  executions_eq : ∀ q inst, instances[q]? = some inst →
    ∃ inst', instances'[q]? = some inst' ∧ inst'.stats.executions =
      inst.stats.executions + (inst.node.kind.isExecutable && decide (q < completed)).toNat
  slots_eq : ∀ s, (∀ q < touched, plan.place q ≠ s) → pool'.slots[s]? = pool.slots[s]?

section

variable {instances : List (PrimitiveInstance ι)} {pool : MemoryPool}

omit [Implementation ι ω] in
theorem progressed_refl (plan : MemoryPlan) (instances : List (PrimitiveInstance ι))
    (pool : MemoryPool) : Progressed plan 0 0 instances pool instances pool :=
  ⟨fun _ _ ↦ rfl, fun _ inst hinst ↦ ⟨inst, hinst, by simp⟩, fun _ _ ↦ rfl⟩

omit [Implementation ι ω] in
/-- One more visit. -/
theorem Progressed.visit (h : Progressed plan p p instances pool state.instances state.pool)
    (hframes : state.Frames plan p answer) :
    Progressed plan (if answer.1.isOk then p + 1 else p) (p + 1) instances pool
      answer.2.instances answer.2.pool := by
  refine ⟨fun q hq ↦ ?_, fun q inst hinst ↦ ?_, fun s hs ↦ ?_⟩
  · rw [hframes.instances q (Nat.ne_of_gt hq), h.instances_eq q (Nat.le_of_succ_le hq)]
  · rcases Nat.lt_trichotomy q p with hlt | rfl | hgt
    · obtain ⟨inst', hinst', hexecutions⟩ := h.executions_eq q inst hinst
      refine ⟨inst', (hframes.instances q (Nat.ne_of_lt hlt)).trans hinst', ?_⟩
      rw [hexecutions, decide_eq_true hlt, decide_eq_true (by split <;> omega)]
    · rw [← h.instances_eq q (Nat.le_refl q)] at hinst
      obtain ⟨inst', hinst', hexecutions⟩ := hframes.executions inst hinst
      refine ⟨inst', hinst', ?_⟩
      rw [hexecutions]
      cases answer.1.isOk <;> simp
    · refine ⟨inst, ?_, ?_⟩
      · rw [hframes.instances q (Nat.ne_of_gt hgt), h.instances_eq q (Nat.le_of_lt hgt), hinst]
      · rw [decide_eq_false (by split <;> omega), Bool.and_false]
        rfl
  · rw [hframes.touches.frame s (hs p p.lt_succ_self).symm,
      h.slots_eq s fun q hq ↦ hs q (Nat.lt_succ_of_lt hq)]

end

/-- The places whose visits succeed are completed. -/
theorem Passes.progressed
    (hholds : standard.Holds context.graph context.specialize.registry context.specialize.device)
    (hstate : state.Upholds standard context.graph plan) (hpasses : state.Passes context p) :
    (state.afterVisits context p).Upholds standard context.graph plan ∧
      Progressed plan p p state.instances state.pool (state.afterVisits context p).instances
        (state.afterVisits context p).pool := by
  induction p with
  | zero => exact ⟨hstate, progressed_refl plan state.instances state.pool⟩
  | succ p ih =>
    obtain ⟨hupholds, hprogressed⟩ := ih fun q hq ↦ hpasses q (Nat.lt_succ_of_lt hq)
    have hok : ((state.afterVisits context p).visit context p).1 = .ok () :=
      hpasses p p.lt_succ_self
    have hvisited := hupholds.visited context hholds p
    have hnext := hprogressed.visit (hvisited.frames hupholds)
    rw [hok] at hnext
    exact ⟨hvisited.upholds hholds hupholds (hok ▸ harmless_ok ()), hnext⟩

variable {error : RuntimeError}

/-- A place whose visit fails is touched, but not completed. -/
theorem FailsFirst.progressed
    (hholds : standard.Holds context.graph context.specialize.registry context.specialize.device)
    (hstate : state.Upholds standard context.graph plan)
    (hfails : state.FailsFirst context p error) :
    Progressed plan p (p + 1) state.instances state.pool
      (state.afterVisits context (p + 1)).instances (state.afterVisits context (p + 1)).pool := by
  obtain ⟨hupholds, hprogressed⟩ := hfails.passes.progressed hholds hstate
  have herror : ((state.afterVisits context p).visit context p).1 = .error error :=
    hfails.answerAt_eq
  have hnext := hprogressed.visit ((hupholds.visited context hholds p).frames hupholds)
  rw [herror] at hnext
  exact hnext

/-- No visit reports that the run was cancelled. -/
theorem FailsFirst.ne_aborted
    (hholds : standard.Holds context.graph context.specialize.registry context.specialize.device)
    (hstate : state.Upholds standard context.graph plan)
    (hfails : state.FailsFirst context p error) (c : Nat) : error ≠ .aborted c := by
  obtain ⟨hupholds, _⟩ := hfails.passes.progressed hholds hstate
  rintro rfl
  rcases (hupholds.visited context hholds p).blames hupholds hfails.answerAt_eq with
    hrun | hunprepared
  · exact hrun
  · exact absurd (hunprepared.poisonsProgram hholds) nofun

end ExecutionState

end TensorEngine
