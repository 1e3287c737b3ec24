import TensorEngine.Proofs.Program.Build

/-!
# Executing programs

An execution of a program that can run leaves one that can run, unless it poisons it; whatever the
bindings are, and also when it fails or is cancelled.  An execution that is not cancelled answers
what the visits of all places leave in the slots.
-/

namespace TensorEngine

namespace Program

variable {program program' : Program CatalogueImplementation} {bindings : Bindings}
  {cancelled : Nat → Environment → Bool} {session : Session Environment} {error : RuntimeError}

/-- Both programs were compiled from the same graph for the same surroundings. -/
structure SameSetting {ι : Type} (program program' : Program ι) : Prop where
  graph_eq : program'.graph = program.graph
  registry_eq : program'.registry = program.registry
  device_eq : program'.device = program.device
  config_eq : program'.config = program.config
  plan_eq : program'.plan = program.plan
  schedule_eq : program'.schedule = program.schedule

theorem SameSetting.refl {ι : Type} (program : Program ι) : SameSetting program program :=
  ⟨rfl, rfl, rfl, rfl, rfl, rfl⟩

theorem SameSetting.trans {ι : Type} {program program' program'' : Program ι}
    (h : SameSetting program program') (h' : SameSetting program' program'') :
    SameSetting program program'' :=
  ⟨h'.graph_eq.trans h.graph_eq, h'.registry_eq.trans h.registry_eq,
    h'.device_eq.trans h.device_eq, h'.config_eq.trans h.config_eq, h'.plan_eq.trans h.plan_eq,
    h'.schedule_eq.trans h.schedule_eq⟩

/-- The programs that executions lead to. -/
inductive Reaches {ι : Type} (ω : Type) [Implementation ι ω] (program : Program ι) :
    Program ι → Prop
  | refl : Reaches ω program program
  | execute {program' : Program ι} (h : Reaches ω program program') (bindings : Bindings)
      (cancelled : Nat → ω → Bool) (session : Session ω) :
      Reaches ω program (program'.execute bindings cancelled session).2.1

def slots {ι : Type} (program : Program ι) : Slots :=
  ⟨program.pool, List.replicate program.graph.size none⟩

/-- The visits of all places in the order of the graph. -/
def slotRun {ι : Type} (program : Program ι) (bindings : Bindings) :
    Except RuntimeError Unit × Slots :=
  program.slots.visitAll (program.context bindings) program.plan (List.range program.graph.size)

/-- A run of a program visits all places in the order of the graph. -/
theorem run_executionState {ι ω : Type} [Implementation ι ω] (program : Program ι)
    (bindings : Bindings) (cancelled : Nat → ω → Bool) (session : Session ω) :
    (program.executionState session).run (program.context bindings) cancelled =
      (program.executionState session).visitAll (program.context bindings) cancelled 0
        (List.range program.graph.size) :=
  rfl

/-- Which bindings are accepted depends on the graph alone. -/
theorem checkBindings_congr {ι : Type} {a b : Program ι} (hgraph : a.graph = b.graph)
    (bindings : Bindings) : a.checkBindings bindings = b.checkBindings bindings := by
  rw [checkBindings, checkBindings, hgraph]

/-- Why a result cannot be read: there is no such place, its slot is missing or too short, or its
extents cannot be counted. -/
theorem of_readOutput_eq_error {ι : Type} {program : Program ι} {extents : List (Option Dims)}
    {id : NodeId} (h : program.readOutput extents id = .error error) :
    (∃ reason, error = .invalidGraph reason) ∨
    (∃ position slot refusal, program.graph.position? id = some position ∧
      program.plan.slotOf id = .ok slot ∧ program.pool.read slot = .error refusal ∧
      error = refusal.toRuntime) ∨
    (∃ op dims refusal, error = .executionFailure id op [dims] (.ofAccess refusal)) ∨
    ∃ position, program.graph.position? id = some position ∧
      elementCount? (extents[position]?.join.getD []) = none ∧
      error = .panicked Size.overflowMessage := by
  unfold readOutput at h
  cases hposition : program.graph.position? id with
  | none =>
    rw [hposition] at h
    exact .inl ⟨_, (Except.error.inj h).symm⟩
  | some position =>
    simp only [hposition] at h
    cases hslot : program.plan.slotOf id with
    | error refusal =>
      rw [hslot] at h
      unfold MemoryPlan.slotOf at hslot
      split at hslot
      · cases hslot
      · cases hslot
        exact .inl ⟨_, (Except.error.inj h).symm⟩
    | ok slot =>
      rw [hslot, ok_bind] at h
      rcases bind_eq_error_iff.1 h with h | ⟨data, _, h⟩
      · obtain ⟨refusal, hread, rfl⟩ := mapError_eq_error_iff.1 h
        exact .inr (.inl ⟨position, slot, refusal, rfl, rfl, hread, rfl⟩)
      · cases hcount : elementCount? (extents[position]?.join.getD []) with
        | none =>
          simp only [hcount] at h
          exact .inr (.inr (.inr ⟨position, rfl, hcount, (Except.error.inj h).symm⟩))
        | some count =>
          simp only [hcount] at h
          rcases bind_eq_error_iff.1 h with h | ⟨_, _, h⟩
          · obtain ⟨refusal, _, rfl⟩ := mapError_eq_error_iff.1 h
            exact .inr (.inr (.inl ⟨_, _, refusal, rfl⟩))
          · obtain ⟨_, _, rfl⟩ := mapError_eq_error_iff.1 h
            exact .inl ⟨_, rfl⟩

def withPool {ι : Type} (program : Program ι) (pool : MemoryPool) : Program ι :=
  { program with pool }

theorem poison_afterFailure {ι : Type} {program : Program ι} (error : RuntimeError)
    (hpoison : program.poison = none) :
    (program.afterFailure error).poison.isSome = error.poisonsProgram := by
  unfold afterFailure
  split
  · rename_i hpoisons
    rw [hpoisons]
    rfl
  · rename_i hpoisons
    rw [Bool.not_eq_true] at hpoisons
    rw [hpoison, hpoisons]
    rfl

/-- A program whose execution went through a state that can run, can run. -/
theorem Fit.withState (hfit : program.Fit)
    {state : ExecutionState CatalogueImplementation Environment}
    (hstate : state.Fit program.graph program.plan program.registry)
    (hkept : state.slots.Kept program.graph program.plan) : (program.withState state).Fit where
  exact := hfit.exact
  device := hfit.device
  safe := hfit.safe
  runnable _ _ htrusts :=
    ⟨hstate.length_instances, hstate.exists_instance, ⟨htrusts, hstate.workspace.entries_sound⟩,
      hstate.typed⟩
  constants := hkept.constants

theorem kept_executionState (hfit : program.Fit) (hpoison : program.poison = none)
    (htrusts : program.registry.Trusts session.environment) :
    (program.executionState session).slots.Kept program.graph program.plan :=
  ⟨(hfit.runnable hpoison session htrusts).typed, hfit.constants⟩

/-- A run leaves a state that can run, unless its failure poisons the program. -/
theorem Fit.run_preserves (hfit : program.Fit) (hpoison : program.poison = none)
    (bindings : Bindings) (cancelled : Nat → Environment → Bool)
    (htrusts : program.registry.Trusts session.environment) :
    let answer := (program.executionState session).run (program.context bindings) cancelled
    answer.2.slots.Kept program.graph program.plan ∧ (Harmless answer.1 →
      ExecutionState.Fit program.graph program.plan program.registry answer.2) :=
  ExecutionState.visitAll_preserves (program.context bindings) cancelled
    (motive := Slots.Kept program.graph program.plan) hfit.exact hfit.device hfit.safe
    (fun _ p h ↦ Slots.kept_visit (program.context bindings) hfit.safe h p)
    (List.range program.graph.size) 0 (program.executionState session)
    (hfit.runnable hpoison session htrusts) (kept_executionState hfit hpoison htrusts)

/-- A run that is not cancelled leaves what the visits of all places leave. -/
theorem Fit.run_never (hfit : program.Fit) (hpoison : program.poison = none)
    (bindings : Bindings) (htrusts : program.registry.Trusts session.environment) :
    let answer := (program.executionState session).run (program.context bindings) never
    answer.1 = (program.slotRun bindings).1 ∧ answer.2.slots = (program.slotRun bindings).2 := by
  obtain ⟨hresult, hslots, _⟩ := ExecutionState.visitAll_spec (program.context bindings) hfit.exact
    hfit.device hfit.safe (List.range program.graph.size) 0 (program.executionState session)
    (hfit.runnable hpoison session htrusts)
  exact ⟨hresult, hslots⟩

/-- An execution leaves a program that can run, or a poisoned one. -/
theorem Fit.execute (hfit : program.Fit) (bindings : Bindings)
    (cancelled : Nat → Environment → Bool) (session : Session Environment)
    (htrusts : program.registry.Trusts session.environment) :
    let answer := program.execute bindings cancelled session
    answer.2.1.Fit ∧ SameSetting program answer.2.1 ∧
      (answer.2.1.poison = none → program.registry.Trusts answer.2.2.environment) := by
  unfold Program.execute
  cases hpoison : program.poison with
  | some poison => exact ⟨hfit, .refl program, fun _ ↦ htrusts⟩
  | none =>
    cases program.checkBindings bindings with
    | error error => exact ⟨hfit, .refl program, fun _ ↦ htrusts⟩
    | ok _ =>
      obtain ⟨hkept, hstate⟩ := hfit.run_preserves hpoison bindings cancelled htrusts
      simp only
      generalize (program.executionState session).run (program.context bindings) cancelled =
        answer at hkept hstate
      obtain ⟨result, state⟩ := answer
      cases result with
      | ok _ =>
        have hstate := hstate (harmless_ok _)
        exact ⟨hfit.withState hstate hkept, ⟨rfl, rfl, rfl, rfl, rfl, rfl⟩,
          fun _ ↦ hstate.workspace.trusts⟩
      | error error =>
        simp only
        cases hpoisons : error.poisonsProgram with
        | true =>
          simp only [afterFailure, hpoisons, if_true]
          refine ⟨⟨hfit.exact, hfit.device, hfit.safe, nofun, hkept.constants⟩,
            ⟨rfl, rfl, rfl, rfl, rfl, rfl⟩, nofun⟩
        | false =>
          have hstate := hstate fun other hother ↦ by
            obtain rfl := Except.error.inj hother
            exact hpoisons
          simp only [afterFailure, hpoisons, Bool.false_eq_true, if_false]
          exact ⟨hfit.withState hstate hkept, ⟨rfl, rfl, rfl, rfl, rfl, rfl⟩,
            fun _ ↦ hstate.workspace.trusts⟩

/-- What an execution that is not cancelled answers. -/
theorem Fit.execute_never (hfit : program.Fit) (hpoison : program.poison = none)
    (htrusts : program.registry.Trusts session.environment)
    (hbindings : program.checkBindings bindings = .ok ()) :
    let answer := program.execute bindings never session
    let run := program.slotRun bindings
    answer.2.1.pool = run.2.pool ∧ (answer.2.1.poison = none ↔ Harmless run.1) ∧
      answer.1 = run.1.bind fun _ ↦ program.graph.outputs.mapM
        ((program.withPool run.2.pool).readOutput run.2.extents) := by
  obtain ⟨hresult, hslots⟩ := hfit.run_never hpoison bindings htrusts
  simp only [Program.execute, hpoison, hbindings]
  generalize (program.executionState session).run (program.context bindings) never = answer
    at hresult hslots
  obtain ⟨result, state⟩ := answer
  simp only at hresult hslots
  rw [← hresult, ← hslots]
  cases result with
  | ok _ => exact ⟨rfl, ⟨fun _ ↦ harmless_ok _, fun _ ↦ hpoison⟩, rfl⟩
  | error error =>
    have hisSome := poison_afterFailure error
      (show (program.withState state).poison = none from hpoison)
    refine ⟨?_, ⟨fun hnone other hother ↦ ?_, fun hharmless ↦ ?_⟩, rfl⟩
    · simp only [afterFailure]
      split <;> rfl
    · obtain rfl := Except.error.inj hother
      rw [← hisSome, hnone]
      rfl
    · rw [← Option.not_isSome_iff_eq_none, hisSome, hharmless error rfl]
      exact Bool.false_ne_true

/-- Executions lead from a program that can run to such programs. -/
theorem Reaches.fit (h : program.Reaches Environment program') (hfit : program.Fit)
    (htrusts : ∀ session : Session Environment, program.registry.Trusts session.environment) :
    program'.Fit ∧ SameSetting program program' := by
  induction h with
  | refl => exact ⟨hfit, .refl program⟩
  | execute _ bindings cancelled session ih =>
    obtain ⟨hfit', hsame⟩ := ih
    obtain ⟨hfit'', hsame', _⟩ := hfit'.execute bindings cancelled session
      (hsame.registry_eq ▸ htrusts session)
    exact ⟨hfit'', hsame.trans hsame'⟩

end Program

end TensorEngine
