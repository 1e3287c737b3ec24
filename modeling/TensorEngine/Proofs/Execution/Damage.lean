import TensorEngine.Proofs.Execution.Simulation
import TensorEngine.Proofs.Execution.Visit
import TensorEngine.Proofs.Kernel.Refusals

/-!
# What poisons a program

A visit fails for many reasons, most of which leave the program usable: extents that do not fit, a
binding of another type, an element that has no value.  Reference kernels do not break down on what
the slots hold, and every node can be finalized, so memory that is refused is the only reason to
poison a program.
-/

namespace TensorEngine

open CatalogueImplementation Kernel PrimitiveInstance

/-- A failure, if any, leaves the program usable, or it is about memory. -/
def SparesOrRefuses {α : Type} (result : Except RuntimeError α) : Prop :=
  Harmless result ∨ Refused result

section

variable {ι : Type} {graph : Graph} {context : ExecutionContext ι} {plan : MemoryPlan}
  {streams p : Nat} {node : Node} {shapes : ConcreteShapes} {dims : Dims} {bindings : Bindings}
  {pool : MemoryPool} {extents : List (Option Dims)} {error : RuntimeError}

/-! ## Arguments -/

theorem isCorrupting_of_viewOf {data : TensorData} {error : BackendError}
    (h : viewOf data dims = .error error) : error.isCorrupting = false := by
  unfold viewOf at h
  split at h
  · obtain rfl := Except.error.inj h
    rfl
  · rcases bind_eq_error_iff.1 h with h | ⟨_, _, h⟩
    · obtain ⟨_, _, rfl⟩ := mapError_eq_error_iff.1 h
      rfl
    · cases h

/-- Arguments that cannot be gathered leave the device intact. -/
theorem isCorrupting_of_arguments {inputs : List Nat} {slot : Nat} {error : BackendError}
    (h : pool.arguments inputs slot shapes = .error error) : error.isCorrupting = false := by
  have hread : ∀ {slot : Nat} {error : BackendError},
      (pool.read slot).mapError slotError = .error error → error.isCorrupting = false := by
    intro slot error h
    obtain ⟨_, _, rfl⟩ := mapError_eq_error_iff.1 h
    rfl
  unfold MemoryPool.arguments at h
  rcases bind_eq_error_iff.1 h with h | ⟨operands, _, h⟩
  · obtain ⟨_, _, h⟩ := mapM_eq_error h
    exact hread h
  rcases bind_eq_error_iff.1 h with h | ⟨result, _, h⟩
  · exact hread h
  rcases bind_eq_error_iff.1 h with h | ⟨views, _, h⟩
  · obtain ⟨_, _, h⟩ := mapM_eq_error h
    exact isCorrupting_of_viewOf h
  split at h
  · rcases bind_eq_error_iff.1 h with h | ⟨_, _, h⟩
    · exact isCorrupting_of_viewOf h
    · cases h
  · obtain rfl := Except.error.inj h
    rfl

/-! ## Filling slots -/

theorem Fault.Mild.isCorrupting {fault : Fault} (h : fault.Mild) (name : String) :
    (faultError name fault).isCorrupting = false := by
  cases fault with
  | refused error => exact h
  | panicked message => exact h.elim

namespace Node

theorem spares_fillBinding (slot : Nat) :
    SparesOrRefuses (node.fillBinding slot bindings pool).1 := by
  unfold fillBinding
  split
  · exact .inl (harmless_error_iff.2 rfl)
  · split
    · exact .inr refused_toRuntime
    · split
      · exact .inr refused_toRuntime
      · split
        · exact .inl (harmless_error_iff.2 rfl)
        · exact .inl (harmless_ok ())

end Node

/-! ## Visits -/

namespace Slots

variable {slots : Slots}

end Slots

end

end TensorEngine
