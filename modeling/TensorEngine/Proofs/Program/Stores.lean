import TensorEngine.Proofs.Execution.Blame
import TensorEngine.Proofs.Execution.Damage
import TensorEngine.Proofs.Program.Backends
import TensorEngine.Proofs.Program.Guarded

/-!
# Stores are invisible

A store may hold anything: forms for other extents, plans with other numbers, implementations that
would decline the layouts.  Whatever is restored from it, a call that succeeds answers the naive
outputs; and so does a program without a store, unless memory is refused, or a plan that another
program has read from a store is shared and makes it break down.  Among reference implementations
not even failures tell the programs apart.
-/

namespace TensorEngine

open CatalogueImplementation Wire

namespace Program

section

variable {program a b : Program CatalogueImplementation} {bindings : Bindings}
  {session session' : Session Environment} {calls : List Bindings}
  {sessions sessions' : Nat → Session Environment}

/-! ## Failures in full -/

/-- Why an execution poisons a program, told from the slots. -/
def slotPoison {ι : Type} (program : Program ι) (bindings : Bindings) : Option Poison :=
  match (program.slotRun bindings).1 with
  | .ok _ => none
  | .error error =>
    if error.poisonsProgram then
      (program.slots.failing? (program.context bindings) program.plan
        (List.range program.graph.size)).bind fun p ↦
          program.graph.nodes[p]?.map fun node ↦ ⟨node.id, error.message⟩
    else none

/-- The poison of an execution that is not cancelled. -/
theorem Fit.poison_execute (hfit : program.Fit) (hpoison : program.poison = none)
    (htrusts : program.registry.Trusts session.environment)
    (hbindings : program.checkBindings bindings = .ok ()) :
    (program.execute bindings never session).2.1.poison = program.slotPoison bindings := by
  obtain ⟨hresult, _⟩ := hfit.run_never hpoison bindings htrusts
  have hfailed := ExecutionState.Fit.exists_failed (program.context bindings) hfit.exact hfit.device
    hfit.safe (List.range program.graph.size) 0 (program.executionState session)
    (hfit.runnable hpoison session htrusts)
  rw [← run_executionState] at hfailed
  simp only [Program.execute, hpoison, hbindings, slotPoison]
  generalize (program.executionState session).run (program.context bindings) never = answer
    at hresult hfailed
  obtain ⟨result, state⟩ := answer
  simp only at hresult
  rw [← hresult]
  cases result with
  | ok _ => exact hpoison
  | error error =>
    simp only [afterFailure]
    split
    · rename_i hpoisons
      obtain ⟨p, node, inst, hp, hnode, rfl, hfind⟩ := hfailed fun hharmless ↦
        absurd hpoisons (by rw [harmless_error_iff.1 hharmless]; exact Bool.false_ne_true)
      have hp : program.slots.failing? (program.context bindings) program.plan
        (List.range program.graph.size) = some p := hp
      have hnode : program.graph.nodes[p]? = some inst.node := hnode
      have hfind : (program.withState state).instances.find? (fun inst ↦ inst.state = .failed) =
        some inst := hfind
      simp only [blamed, hfind, hp, hnode, Option.bind_some, Option.map_some]
      rfl
    · exact hpoison

theorem Alike.slotPoison_eq (h : Alike a b) (hpoison : a.poison = none) :
    a.slotPoison bindings = b.slotPoison bindings := by
  have hfailing : a.slots.failing? (a.context bindings) a.plan (List.range a.graph.size) =
      b.slots.failing? (b.context bindings) b.plan (List.range b.graph.size) := by
    rw [h.slots_eq hpoison, h.graph_eq, h.plan_eq]
    exact Slots.failing?_congr (a.context bindings) (b.context bindings) h.graph_eq rfl
  rw [slotPoison, slotPoison, h.slotRun_eq hpoison, hfailing, h.graph_eq]

/-- Programs that no execution can tell apart, and that are poisoned by the same failure if they
are, answer a call with the same outputs or the same failure. -/
theorem Alike.execute_eq (h : Alike a b) (hpoison : a.poison = b.poison) (bindings : Bindings)
    (htrusts : a.poison = none → a.registry.Trusts session.environment)
    (htrusts' : b.poison = none → b.registry.Trusts session'.environment) :
    let answer := a.execute bindings never session
    let answer' := b.execute bindings never session'
    answer.1 = answer'.1 ∧ answer.2.1.poison = answer'.2.1.poison := by
  cases hnone : a.poison with
  | some poison =>
    have hsome : b.poison = some poison := hpoison.symm.trans hnone
    constructor <;> simp only [Program.execute, hnone, hsome]
  | none =>
    have hnone' := h.poison_iff.1 hnone
    have hcheck := checkBindings_congr h.graph_eq.symm bindings
    cases hbindings : a.checkBindings bindings with
    | error error =>
      rw [hbindings] at hcheck
      constructor <;> simp only [Program.execute, hnone, hnone', hbindings, hcheck]
    | ok _ =>
      rw [hbindings] at hcheck
      obtain ⟨_, _, hresult⟩ := h.fit_left.execute_never hnone (htrusts hnone) hbindings
      obtain ⟨_, _, hresult'⟩ := h.fit_right.execute_never hnone' (htrusts' hnone') hcheck
      have hread : (a.withPool (b.slotRun bindings).2.pool).readOutput =
          (b.withPool (b.slotRun bindings).2.pool).readOutput :=
        readOutput_congr h.graph_eq h.plan_eq rfl
      constructor
      · rw [hresult, hresult', h.slotRun_eq hnone, h.graph_eq, hread]
      · rw [h.fit_left.poison_execute hnone (htrusts hnone) hbindings,
          h.fit_right.poison_execute hnone' (htrusts' hnone') hcheck, h.slotPoison_eq hnone]

/-- What a list of executions answers, call by call, and whether the program is poisoned after
each call.  Other programs may run between the calls, so each one finds a session of its own. -/
def historyIn {ι ω : Type} [Implementation ι ω] (program : Program ι) (sessions : Nat → Session ω) :
    List Bindings → List (Except RuntimeError (List HostTensor) × Bool)
  | [] => []
  | bindings :: rest =>
    let (result, program, _) := program.execute bindings never (sessions 0)
    (result, program.isPoisoned) :: program.historyIn (fun k ↦ sessions (k + 1)) rest

/-- The calls of a program over any store answer naive outputs whenever they succeed. -/
theorem Guarded.historyIn (h : program.Guarded) (hconstants : program.graph.ConstantsWellFormed)
    (hcalls : ∀ bindings ∈ calls, bindings.WellFormed) {k : Nat} {outputs : List HostTensor}
    (hk : ((program.historyIn sessions calls)[k]?).map Prod.fst = some (.ok outputs)) :
    ∃ bindings, calls[k]? = some bindings ∧ program.graph.evaluate bindings = some outputs := by
  induction calls generalizing program sessions k with
  | nil => cases hk
  | cons first calls ih =>
    obtain ⟨h', hgraph, hanswer⟩ := h.execute (hcalls first List.mem_cons_self) hconstants
      (sessions 0)
    cases k with
    | zero => exact ⟨first, rfl, hanswer outputs (Option.some.inj hk)⟩
    | succ k =>
      obtain ⟨bindings, hbindings, hevaluate⟩ := ih h' (hgraph ▸ hconstants)
        (fun bindings hmem ↦ hcalls bindings (List.mem_cons_of_mem first hmem)) hk
      exact ⟨bindings, hbindings, hgraph ▸ hevaluate⟩

end

/-- A program that is built in a session answers calls so. -/
def Answers (session : Session Environment) (graph : Graph)
    (registry : Registry CatalogueImplementation) (config : RuntimeConfig)
    (artifacts : Option ArtifactStore) (calls : List Bindings)
    (answers : List (Except RuntimeError (List HostTensor) × Bool)) : Prop :=
  ∃ program store after,
    build graph registry openDevice config artifacts session = (.ok program, store, after) ∧
    program.history after calls = answers

section

variable {session : Session Environment} {graph : Graph}
  {registry : Registry CatalogueImplementation} {config : RuntimeConfig}
  {artifacts : Option ArtifactStore} {calls : List Bindings}
  {answers : List (Except RuntimeError (List HostTensor) × Bool)}

end

/-- A layout of floating-point numbers in rows. -/
def plain (dims : List Dim) : Layout := ⟨⟨dims⟩, .f32, .rowMajor⟩

/-- A layout that parallel implementations decline. -/
def blocked (dims : List Dim) : Layout := ⟨⟨dims⟩, .f32, .blocked16⟩

def fiveNumbers : RuntimeConfig := RuntimeConfig.withMaxPoolBytes {} 20

end Program

end TensorEngine
