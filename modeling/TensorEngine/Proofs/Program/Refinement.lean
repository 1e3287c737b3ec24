import TensorEngine.Proofs.Program.Execute
import TensorEngine.Proofs.Stream.Orders

/-!
# Executions refine naive evaluation

An execution of a program over the reference implementations answers the naive values of the
outputs, or fails exactly when some node has none; unless memory is refused.  This holds in every
state that earlier executions lead to, successful, failed or cancelled.
-/

namespace TensorEngine

open CatalogueImplementation

namespace Program

variable {ι : Type} {program : Program ι} {bindings : Bindings} {streams p : Nat} {node : Node}
  {extents : List (Option Dims)} {tensor : HostTensor} {done order : List Nat} {slots : Slots}

/-! ## Reading the outputs -/

/-- The tensor at the front of a slot is read back. -/
theorem readOutput_eq (program : Program ι) (hsafe : program.plan.Safe program.graph streams)
    (hnode : program.graph.nodes[p]? = some node)
    (hextents : extents[p]? = some (some tensor.dims))
    (hholds : program.pool.Holds program.plan p tensor) (hsized : tensor.WellFormed) :
    program.readOutput extents node.id = .ok tensor := by
  obtain ⟨data, hdata, hbegins⟩ := hholds
  have htensor : HostTensor.ofDims? tensor.dims tensor.data = .ok tensor :=
    HostTensor.ofDims?_eq_ok_iff.2 ⟨rfl, hsized⟩
  unfold readOutput
  simp only [Graph.position?_id hnode, hextents, Option.join_some, Option.getD_some,
    hsafe.slotOf_id hnode, ok_bind, MemoryPool.read_eq_ok_iff.2 hdata, Except.mapError,
    show elementCount? tensor.dims = some tensor.data.size from hsized, hbegins.view_eq, htensor]

/-- When all places were visited, the outputs are the naive ones. -/
theorem readOutputs_eq (hsafe : program.plan.Safe program.graph streams)
    (hconstants : program.graph.ConstantsWellFormed) (hbindings : bindings.WellFormed)
    (hsim : slots.Simulates program.graph bindings program.plan done)
    (hall : ∀ p < program.graph.size, p ∈ done) :
    ∃ outputs, program.graph.evaluate bindings = some outputs ∧
      program.graph.outputs.mapM ((program.withPool slots.pool).readOutput slots.extents) =
        .ok outputs := by
  obtain ⟨outputs, houtputs⟩ : ∃ outputs, List.Forall₂ (fun id tensor ↦
      (program.graph.position? id).bind (program.graph.value bindings) = some tensor ∧
        (program.withPool slots.pool).readOutput slots.extents id = .ok tensor)
      program.graph.outputs outputs := by
    refine exists_forall₂ fun id hid ↦ ?_
    obtain ⟨p, node, hnode, rfl⟩ := Graph.exists_of_mem_outputs hid
    obtain ⟨tensor, hvalue, hextents, hholds⟩ := hsim.output hsafe hall hnode hid
    refine ⟨tensor, by rw [Graph.position?_id hnode, Option.bind_some, hvalue], ?_⟩
    exact readOutput_eq (program.withPool slots.pool) hsafe hnode hextents hholds
      (Graph.value_spec hconstants hbindings hnode hvalue).1
  refine ⟨outputs, Graph.evaluate_eq_some_iff.2 ⟨fun p hp ↦ ?_, houtputs.imp fun _ _ h ↦ h.1⟩,
    mapM_eq_ok_iff.2 (houtputs.imp fun _ _ h ↦ h.2)⟩
  obtain ⟨tensor, hvalue, _⟩ := hsim.exists_value (hall p hp)
  exact ⟨tensor, hvalue⟩

/-! ## Bindings -/

/-- Bindings that are refused leave some parameter without a value. -/
theorem evaluate_of_checkBindings {error : RuntimeError}
    (h : program.checkBindings bindings = .error error) :
    program.graph.evaluate bindings = none := by
  obtain ⟨node, hmem, hcheck⟩ := forM_eq_error h
  rw [Graph.parameters, List.mem_filter, decide_eq_true_eq] at hmem
  obtain ⟨hmem, hkind⟩ := hmem
  obtain ⟨p, hnode⟩ := List.mem_iff_getElem?.1 hmem
  have hop : node.op = .parameter := by
    unfold Node.kind at hkind
    cases hop : node.op <;> rw [hop] at hkind <;> first | rfl | cases hkind
  refine Graph.evaluate_eq_none (Graph.lt_size hnode)
    (Option.eq_none_iff_forall_ne_some.2 fun tensor hvalue ↦ ?_)
  obtain ⟨operands, _, hevaluate⟩ := (Graph.value_eq_some_iff hnode).1 hvalue
  obtain ⟨hdims, haccepts, hdata⟩ := Node.evaluate_eq_some_iff.1 hevaluate
  rw [Node.extents?, if_pos hkind, Option.map_eq_some_iff] at hdims
  obtain ⟨binding, hbinding, hdims⟩ := hdims
  simp only [Node.elements, hop, hbinding, Option.map_some, Option.filter_eq_some_iff,
    Option.some.injEq] at hdata
  rw [checkBinding, hbinding] at hcheck
  simp only [hdims, haccepts, if_true] at hcheck
  have hdtype : binding.dtype = node.output.dtype := by
    rw [HostTensor.dtype, hdata.1]
    exact of_decide_eq_true hdata.2
  rw [if_neg (not_not.2 hdtype)] at hcheck
  cases hcheck

/-! ## Executions -/

/-- What an execution answers that visits the places in some order and is never cancelled. -/
def executeAlong {ω : Type} [Implementation ι ω] (program : Program ι) (bindings : Bindings)
    (order : List Nat) (session : Session ω) : Except RuntimeError (List HostTensor) :=
  match program.checkBindings bindings with
  | .error error => .error error
  | .ok () =>
    let (result, state) := (program.executionState session).visitAll (program.context bindings)
      never 0 order
    result.bind fun _ ↦
      program.graph.outputs.mapM ((program.withState state).readOutput state.extents)

/-- An execution visits the places in the order of the graph. -/
theorem execute_eq_executeAlong {ω : Type} [Implementation ι ω] {session : Session ω}
    (hpoison : program.poison = none) : (program.execute bindings never session).1 =
      program.executeAlong bindings (List.range program.graph.size) session := by
  simp only [Program.execute, executeAlong, hpoison, run_executionState]
  cases program.checkBindings bindings with
  | error error => rfl
  | ok _ =>
    simp only
    generalize (program.executionState session).visitAll (program.context bindings) never 0
      (List.range program.graph.size) = answer
    obtain ⟨result, state⟩ := answer
    cases result <;> rfl

section

variable {program : Program CatalogueImplementation} {session : Session Environment}

/-- An execution starts with nothing to simulate. -/
theorem Fit.simulates (hfit : program.Fit) (hpoison : program.poison = none)
    (htrusts : program.registry.Trusts session.environment) :
    (program.executionState session).slots.Simulates program.graph bindings program.plan [] :=
  Slots.simulates_nil (kept_executionState hfit hpoison htrusts)

/-- An execution in an admissible order answers the naive outputs, or fails exactly when there are
none. -/
theorem Fit.executeAlong_refines (hfit : program.Fit) (hpoison : program.poison = none)
    (htrusts : program.registry.Trusts session.environment)
    (hconstants : program.graph.ConstantsWellFormed) (hbindings : bindings.WellFormed)
    (horder : program.plan.Admissible program.graph [] order)
    (hall : ∀ p < program.graph.size, p ∈ order) :
    let answer := program.executeAlong bindings order session
    Refused answer ∨ answer.toOption = program.graph.evaluate bindings := by
  unfold executeAlong
  cases hcheck : program.checkBindings bindings with
  | error error => exact .inr (evaluate_of_checkBindings hcheck).symm
  | ok _ =>
    obtain ⟨hresult, hslots, _⟩ := ExecutionState.visitAll_spec (program.context bindings)
      hfit.exact hfit.device hfit.safe order 0 (program.executionState session)
      (hfit.runnable hpoison session htrusts)
    have hrun := Slots.visitAll_simulates (program.context bindings) hfit.safe
      hconstants hbindings horder (hfit.simulates hpoison htrusts)
    generalize (program.executionState session).visitAll (program.context bindings) never 0 order =
      answer at hresult hslots ⊢
    generalize (program.executionState session).slots.visitAll (program.context bindings)
      program.plan order = expected at hresult hslots hrun
    obtain ⟨result, state⟩ := answer
    obtain ⟨result', slots⟩ := expected
    obtain rfl : result = result' := hresult
    obtain rfl : state.slots = slots := hslots
    rcases hrun with ⟨requested, slot, reason, rfl⟩ | ⟨rfl, hsim⟩ | ⟨⟨p, hp, hnone⟩, error, rfl⟩
    · exact .inl ⟨requested, slot, reason, rfl⟩
    · obtain ⟨outputs, hevaluate, hread⟩ := readOutputs_eq hfit.safe hconstants hbindings hsim
        fun p hp ↦ by simpa using hall p hp
      exact .inr ((toOption_eq_some_iff.2 hread).trans hevaluate.symm)
    · exact .inr (Graph.evaluate_eq_none (horder.lt_size hp) hnone).symm

/-- So does an execution in the order of the graph. -/
theorem Fit.refines (hfit : program.Fit) (hpoison : program.poison = none)
    (htrusts : program.registry.Trusts session.environment)
    (hconstants : program.graph.ConstantsWellFormed) (hbindings : bindings.WellFormed) :
    let answer := (program.execute bindings never session).1
    Refused answer ∨ answer.toOption = program.graph.evaluate bindings := by
  have hdeals := StreamSchedule.deals_ofGraph program.graph program.config.streamCount
  have horder := (StreamSchedule.allows_range hdeals).admissible hdeals hfit.safe
  rw [execute_eq_executeAlong hpoison]
  exact hfit.executeAlong_refines hpoison htrusts hconstants hbindings horder
    fun p hp ↦ List.mem_range.2 hp

end

/-- A matrix of integers with a bounded number of columns. -/
def boundedColumns (bound : UInt64) : Layout := ⟨⟨[.unbounded, .range 0 bound]⟩, .i32, .rowMajor⟩

/-- The negation and the absolute value of a number. -/
def collidingGraph : Graph where
  nodes := [
    ⟨⟨0⟩, .parameter, [], [⟨⟨[.fixed 1, .fixed 1]⟩, .i32, .rowMajor⟩]⟩,
    ⟨⟨1⟩, .unary .neg, [⟨0⟩], [boundedColumns 11452791152196907838]⟩,
    ⟨⟨2⟩, .unary .abs, [⟨0⟩], [boundedColumns 9417068772757409991]⟩]
  outputs := [⟨1⟩, ⟨2⟩]
  valid := by rfl

def number (value : Int32) : HostTensor := ⟨[1, 1], .i32 #[value]⟩

def five : Bindings := fun _ ↦ some (number 5)

theorem five_wellFormed : five.WellFormed := by
  intro _ _ htensor
  obtain rfl := Option.some.inj htensor
  rfl

theorem constantsWellFormed_collidingGraph : collidingGraph.ConstantsWellFormed := by
  unfold Graph.ConstantsWellFormed
  simp [collidingGraph]

end Program

end TensorEngine
