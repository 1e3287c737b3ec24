import TensorEngine.Proofs.Artifact.Payload
import TensorEngine.Proofs.Artifact.Reading
import TensorEngine.Proofs.Instance.Trusting
import TensorEngine.Proofs.Program.Refinement

/-!
# Programs over any store

Whatever a store holds, a program that is built over it has an implementation of its node at every
place, and keeps them through all executions that do not poison it.  An execution that succeeds
answers the naive outputs, whichever implementations were restored for whatever extents.
-/

namespace TensorEngine

open CatalogueImplementation

variable {graph : Graph} {registry : Registry CatalogueImplementation} {device : DeviceCaps}
  {node : Node}

/-! ## Restored instances -/

namespace PrimitiveInstance

variable {declared : List Layout} {id : DescriptorId} {form : FinalizedForm}
  {impl : CatalogueImplementation}

end PrimitiveInstance

/-! ## Building instances -/

namespace Program

variable {program : Program CatalogueImplementation} {config : RuntimeConfig}
  {bindings : Bindings} {session session' : Session Environment}

/-- A program with implementations of its nodes, which can run unless it is poisoned. -/
structure Guarded (program : Program CatalogueImplementation) : Prop where
  exact : ∀ descriptor ∈ program.registry.descriptors, descriptor ∈ exactDescriptors
  safe : program.plan.Safe program.graph program.config.streamCount
  runnable : program.poison = none → ∀ session : Session Environment,
    (program.executionState session).Upholds (planStandard program.graph program.registry)
      program.graph program.plan
  kept : program.slots.Kept program.graph program.plan

/-- When the visits of all places succeed, the outputs are the naive ones. -/
theorem outputs_of_slotRun {slots : Slots}
    (hsafe : program.plan.Safe program.graph program.config.streamCount)
    (hkept : program.slots.Kept program.graph program.plan)
    (hconstants : program.graph.ConstantsWellFormed) (hbindings : bindings.WellFormed)
    (hrun : program.slotRun bindings = (.ok (), slots)) :
    ∃ outputs, program.graph.evaluate bindings = some outputs ∧
      program.graph.outputs.mapM ((program.withPool slots.pool).readOutput slots.extents) =
        .ok outputs := by
  have hdeals := StreamSchedule.deals_ofGraph program.graph program.config.streamCount
  have horder := (StreamSchedule.allows_range hdeals).admissible hdeals hsafe
  have hsimulates := Slots.visitAll_simulates (program.context bindings) hsafe hconstants
    hbindings horder (show program.slots.Simulates program.graph bindings program.plan [] from
      Slots.simulates_nil hkept)
  have hall : ∀ p < program.graph.size,
      p ∈ (List.range program.graph.size).reverse ++ [] := fun p hp ↦ by simpa using hp
  have hvisits : program.slots.visitAll (program.context bindings) program.plan
    (List.range program.graph.size) = (.ok (), slots) := hrun
  rw [hvisits] at hsimulates
  rcases hsimulates with ⟨_, _, _, hrefused⟩ | ⟨_, hsim⟩ | ⟨_, error, herror⟩
  · cases hrefused
  · exact readOutputs_eq hsafe hconstants hbindings hsim hall
  · cases herror

/-- An execution leaves a program that can run, or a poisoned one; when it succeeds, it answers the
naive outputs. -/
theorem Guarded.execute (h : program.Guarded) (hbindings : bindings.WellFormed)
    (hconstants : program.graph.ConstantsWellFormed) (session : Session Environment) :
    let answer := program.execute bindings never session
    answer.2.1.Guarded ∧ answer.2.1.graph = program.graph ∧
      ∀ outputs, answer.1 = .ok outputs → program.graph.evaluate bindings = some outputs := by
  unfold Program.execute
  cases hpoison : program.poison with
  | some poison => exact ⟨h, rfl, fun _ h ↦ absurd h error_ne_ok⟩
  | none =>
    cases program.checkBindings bindings with
    | error error => exact ⟨h, rfl, fun _ h ↦ absurd h error_ne_ok⟩
    | ok _ =>
      obtain ⟨hkept, hstate, hrun⟩ := ExecutionState.Upholds.visitAll (program.context bindings)
        (holds_planStandard program.device h.exact) computes_planStandard h.safe
        (List.range program.graph.size) 0 (program.executionState session)
        (h.runnable hpoison session) h.kept
      change _ → program.slotRun bindings = (_, ((program.executionState session).run
        (program.context bindings) never).2.slots) at hrun
      rw [← run_executionState] at hkept hstate hrun
      generalize (program.executionState session).run (program.context bindings) never = answer
        at hkept hstate hrun
      have hwith : Harmless answer.1 → (program.withState answer.2).Guarded := by
        intro hharmless
        have hstate := hstate hharmless
        exact ⟨h.exact, h.safe, fun _ session ↦ ⟨hstate.length_instances, hstate.exists_instance,
          hstate.kept.enabled, trivial, hstate.kept.keeps⟩, hkept.typed, hkept.constants⟩
      obtain ⟨error | _, state⟩ := answer
      · simp only
        cases hpoisons : error.poisonsProgram with
        | true =>
          simp only [afterFailure, hpoisons, if_true]
          exact ⟨⟨h.exact, h.safe, fun hnone ↦ absurd hnone (Option.some_ne_none _), hkept.typed,
            hkept.constants⟩, rfl, fun _ h ↦ absurd h error_ne_ok⟩
        | false =>
          have hharmless : Harmless (.error error : Except RuntimeError Unit) :=
            harmless_error_iff.2 hpoisons
          simp only [afterFailure, hpoisons, Bool.false_eq_true, if_false]
          exact ⟨hwith hharmless, rfl, fun _ h ↦ absurd h error_ne_ok⟩
      · refine ⟨hwith (harmless_ok ()), rfl, fun outputs houtputs ↦ ?_⟩
        obtain ⟨outputs', hevaluate, hread⟩ := outputs_of_slotRun h.safe h.kept hconstants
          hbindings (hrun rfl)
        rw [hevaluate, Option.some.injEq]
        exact Except.ok.inj (hread.symm.trans houtputs)

end Program

end TensorEngine
