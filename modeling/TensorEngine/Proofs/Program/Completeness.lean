import TensorEngine.Proofs.Program.Refinement
import TensorEngine.Proofs.Program.Resting

/-!
# Reference implementations suffice

Over a registry with all reference implementations, on a device that enables them, every node can
be bound, and whatever happens to a program no execution of it lacks an implementation.  Unless the
cache mistakes one node for another, every instance can also be finalized for the extents of every
execution: what is bound under the reference descriptor of a node runs the kernel of the node, so
there is always an implementation to fall back on.
-/

namespace TensorEngine

open CatalogueImplementation

variable {graph : Graph} {registry : Registry CatalogueImplementation} {device : DeviceCaps}
  {config : RuntimeConfig} {node : Node} {error : RuntimeError}

/-! ## Implementations under the reference descriptor -/

/-- What is bound under the reference descriptor of a node runs the kernel of the node.  A cache is
fine when signatures tell the nodes of the graph apart. -/
def Standard.grounded (graph : Graph) (registry : Registry CatalogueImplementation) :
    Standard CatalogueImplementation Environment where
  enabled := graph.SignaturesFaithful
  environment _ := True
  bound node bound := bound.Grounded registry node
  form node _ entry := entry.bound.Grounded registry node
  cached key entry := ∀ node ∈ graph.nodes,
    node.signature (graph.inputLayouts node) = key.1 → entry.bound.Grounded registry node

namespace Standard

end Standard

/-! ## Preparing instances -/

namespace ExecutionState

variable {context : ExecutionContext CatalogueImplementation} {plan : MemoryPlan}

/-- Where there are candidates for every node, a preparation fails because none of them can be
finalized. -/
theorem Unprepared.finalizationFailure {standard : Standard CatalogueImplementation Environment}
    (h : Unprepared standard context plan error)
    (hreferences : context.specialize.registry.HasReferences)
    (hdevice : context.specialize.device.enables .reference = true) :
    ∃ node op shapes reason, error = .finalizationFailure node op shapes reason := by
  obtain ⟨state, p, node, inst, shapes, hstate, hnode, hinst, _, herror⟩ := h
  obtain ⟨other, hother, _, husable⟩ := hstate.exists_instance hnode
  obtain rfl := Option.some.inj (hinst.symm.trans hother)
  obtain ⟨_, rfl⟩ := inst.finalizationFailure_of_prepare shapes state.workspace
    (hreferences.candidates_eq inst.node inst.declaredInputs hdevice) husable.state_eq herror
  exact ⟨_, _, _, _, rfl⟩

end ExecutionState

/-! ## Building and executing -/

namespace BuildState

variable {ι ω : Type} [Implementation ι ω] {registry : Registry ι} {state : BuildState ι ω}
  {declared : List Layout}

variable {registry : Registry CatalogueImplementation}
  {state : BuildState CatalogueImplementation Environment}

end BuildState

namespace Program

variable {program program' : Program CatalogueImplementation} {store : Option ArtifactStore}
  {session : Session Environment} {bindings : Bindings} {cancelled : Nat → Environment → Bool}

end Program

end TensorEngine
