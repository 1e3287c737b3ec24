import TensorEngine.Proofs.Execution.Visit

/-!
# Who is blamed

A failure that poisons a program is blamed on the first failed instance.  There is none but that of
the place whose visit failed, and which place that is depends on the slots alone, so two programs
with equal slots blame the same node.
-/

namespace TensorEngine

open CatalogueImplementation

variable {ι ω : Type} {graph : Graph} {plan : MemoryPlan} {streams : Nat}

namespace Slots

/-- The first place whose visit fails. -/
def failing? (context : ExecutionContext ι) (plan : MemoryPlan) (slots : Slots) :
    List Nat → Option Nat
  | [] => none
  | p :: rest =>
    match slots.visit context plan p with
    | (.ok (), slots) => slots.failing? context plan rest
    | (.error _, _) => some p

/-- Which implementations are at hand plays no part in which visit fails. -/
theorem failing?_congr (context context' : ExecutionContext ι) {plan : MemoryPlan}
    (hgraph : context.graph = context'.graph) (hbindings : context.bindings = context'.bindings)
    {slots : Slots} {order : List Nat} :
    slots.failing? context plan order = slots.failing? context' plan order := by
  obtain ⟨graph, specialize, bindings⟩ := context
  obtain ⟨graph', specialize', bindings'⟩ := context'
  obtain rfl : graph = graph' := hgraph
  obtain rfl : bindings = bindings' := hbindings
  have hvisit : ∀ (slots : Slots) (p : Nat), slots.visit ⟨graph, specialize, bindings⟩ plan p =
      slots.visit ⟨graph, specialize', bindings⟩ plan p := fun _ _ ↦ rfl
  induction order generalizing slots with
  | nil => rfl
  | cons p order ih =>
    simp only [failing?, hvisit]
    split
    · exact ih
    · rfl

end Slots

/-- The standard that asks for nothing. -/
def Standard.anything (ι ω : Type) : Standard ι ω where
  enabled := True
  environment _ := True
  bound _ _ := True
  form _ _ _ := True
  cached _ _ := True

theorem Standard.holds_anything [Implementation ι ω] (graph : Graph) (registry : Registry ι)
    (device : DeviceCaps) : (Standard.anything ι ω).Holds graph registry device where
  upheld _ _ _ := ⟨fun _ ↦ trivial, fun _ _ ↦ ⟨trivial, fun _ _ ↦ trivial⟩, fun _ _ ↦ trivial,
    fun _ _ ↦ trivial, fun _ ↦ ⟨trivial, trivial⟩⟩
  runs _ _ _ _ _ := trivial

namespace ExecutionState

/-- Instances that can be prepared have not failed. -/
theorem Upholds.not_failed {standard : Standard ι ω} {state : ExecutionState ι ω}
    (h : state.Upholds standard graph plan) {inst : PrimitiveInstance ι}
    (hmem : inst ∈ state.instances) : inst.state ≠ .failed := by
  rcases (h.usable hmem).state_eq with hstate | hstate <;> rw [hstate] <;> nofun

variable {registry : Registry CatalogueImplementation}
  {state : ExecutionState CatalogueImplementation Environment}

theorem Fit.upholds_anything (h : state.Fit graph plan registry) :
    state.Upholds (.anything _ _) graph plan := by
  refine ⟨h.length_instances, fun hnode ↦ ?_, fun _ ↦ trivial, trivial, ?_⟩
  · obtain ⟨inst, hinst, hat⟩ := h.exists_instance hnode
    refine ⟨inst, hinst, hat.toSeated, ?_⟩
    cases hat.usable with
    | bound hstate hbound => exact .bound hstate hbound trivial
    | ready hready =>
      obtain ⟨entry, hbound, hform, _⟩ := hready.entry
      exact .ready hready.state_eq hbound hform trivial trivial
  · exact fun _ _ _ _ _ ↦ trivial

/-- After a run that poisons the program, the first failed instance is that of the place whose
visit failed. -/
theorem Fit.exists_failed (context : ExecutionContext CatalogueImplementation)
    (hexact : context.specialize.registry.Exact)
    (hdevice : context.specialize.device.enables .reference = true)
    (hsafe : plan.Safe context.graph streams) (order : List Nat) :
    ∀ (completed : Nat) (state : ExecutionState CatalogueImplementation Environment),
      state.Fit context.graph plan context.specialize.registry →
        let answer := state.visitAll context Program.never completed order
        ¬Harmless answer.1 → ∃ p node inst,
          state.slots.failing? context plan order = some p ∧
          context.graph.nodes[p]? = some node ∧ inst.node = node ∧
          answer.2.instances.find? (fun inst ↦ inst.state = .failed) = some inst := by
  induction order with
  | nil => exact fun _ _ _ hpoisons ↦ absurd (harmless_ok ()) hpoisons
  | cons p order ih =>
    intro completed state hfit
    have hstate := hfit.upholds_anything
    have hfailed := (hstate.visited context (Standard.holds_anything _ _ _) p).failed
    obtain ⟨hresult, hslots, hfit'⟩ := visit_spec context hexact hdevice hsafe hfit p
    simp only [visitAll, Slots.failing?, Program.never, Bool.false_eq_true, if_false]
    generalize state.visit context p = answer at hfailed hresult hslots hfit'
    generalize state.slots.visit context plan p = expected at hresult hslots hfit'
    obtain ⟨result, state'⟩ := answer
    obtain ⟨result', slots'⟩ := expected
    obtain rfl : result = result' := hresult
    obtain rfl : state'.slots = slots' := hslots
    cases result with
    | ok _ => exact ih (completed + 1) state' (hfit' (harmless_ok _))
    | error error =>
      intro hpoisons
      obtain ⟨node, inst, hnode, hinst, hinstFailed, hinstances⟩ := hfailed hpoisons
      refine ⟨p, node, inst, rfl, hnode, hinst, ?_⟩
      have hlt : p < state.instances.length := by
        rw [hstate.length_instances]
        exact Graph.lt_size hnode
      simp only at hinstances
      rw [hinstances, List.find?_eq_some_iff_getElem]
      refine ⟨decide_eq_true hinstFailed, p, by rwa [List.length_set], List.getElem_set_self _,
        fun q hq ↦ ?_⟩
      rw [List.getElem_set_ne (Nat.ne_of_gt hq)]
      simpa using hstate.not_failed (List.getElem_mem _)

end ExecutionState

end TensorEngine
