import TensorEngine.Instance
import TensorEngine.Profile

/-!
# Specialization

Before a run an instance has to be finalized for the extents of the run.  The bound implementation
is kept as long as it takes the extents: a form that it made before is taken from the cache, or it
is finalized anew.  Otherwise the instance changes over to a form of another implementation in the
cache, or to the best candidate that takes the extents and can be finalized.
-/

namespace TensorEngine

/-- What had to be done before an instance could run. -/
inductive Transition where
  /-- Nothing: it was ready for the extents. -/
  | unchanged
  /-- It was finalized for the first time. -/
  | finalized
  /-- It was specialised for other extents, perhaps with another implementation. -/
  | respecialized (reselected : Bool)
deriving DecidableEq, Repr

/-- What a specialization consults. -/
structure SpecializeContext (ι : Type) where
  registry : Registry ι
  device : DeviceCaps

/-- What a specialization changes besides the instance. -/
structure Workspace (ι ω : Type) where
  /-- The cache of finalized implementations, when there is one. -/
  cache : Option (ImplementationCache ι)
  session : Session ω

namespace Workspace

variable {ι ω : Type}

def event (workspace : Workspace ι ω) (name : String) : Workspace ι ω :=
  { workspace with session := workspace.session.event name }

def scope (workspace : Workspace ι ω) (name : String) : Workspace ι ω :=
  { workspace with session := workspace.session.scope name }

def environment (workspace : Workspace ι ω) : ω := workspace.session.environment

def withEnvironment (workspace : Workspace ι ω) (environment : ω) : Workspace ι ω :=
  { workspace with session := workspace.session.withEnvironment environment }

def keep (workspace : Workspace ι ω) (key : CacheKey) (entry : FinalizedImplementation ι) :
    Workspace ι ω :=
  { workspace with cache := workspace.cache.map (·.put key entry) }

/-- The cached form for a key when it is acceptable; looking at an entry is a use of it. -/
def cached (workspace : Workspace ι ω) (key : CacheKey)
    (acceptable : FinalizedImplementation ι → Bool) :
    Option (FinalizedImplementation ι) × Workspace ι ω :=
  match workspace.cache with
  | none => (none, workspace)
  | some cache =>
    let (hit, cache) := cache.get key
    let workspace := { workspace with cache := some cache }
    match hit.filter acceptable with
    | some hit => (some hit, workspace.event Profile.cacheHit)
    | none => (none, workspace.event Profile.cacheMiss)

end Workspace

namespace PrimitiveInstance

variable {ι ω : Type} [Implementation ι ω]

/-- The declared layouts of the operands pinned to the extents. -/
def concreteInputs (inst : PrimitiveInstance ι) (shapes : ConcreteShapes) : List Layout :=
  ConcreteShapes.pin inst.declaredInputs shapes.inputs

/-- The declared layouts of the results pinned to the extents. -/
def concreteOutputs (inst : PrimitiveInstance ι) (shapes : ConcreteShapes) : List Layout :=
  ConcreteShapes.pin inst.node.outputs shapes.outputs

/-- Whether the bound implementation takes the extents. -/
def boundSupports (inst : PrimitiveInstance ι) (shapes : ConcreteShapes) : Bool :=
  inst.implementation?.any fun implementation ↦
    Implementation.supports implementation (inst.concreteInputs shapes)
      (inst.concreteOutputs shapes)

/-- Takes over a finalized implementation; another descriptor in place of one counts as a
reselection. -/
def adopt (inst : PrimitiveInstance ι) (entry : FinalizedImplementation ι) :
    PrimitiveInstance ι :=
  let reselected := inst.bound.isSome && inst.descriptor? ≠ some entry.bound.descriptor
  { inst with
    bound := some entry.bound
    form := some entry.form
    state := .ready
    stats := { inst.stats with
      reselections := inst.stats.reselections + if reselected then 1 else 0 } }

/-- Takes over a form from the cache. -/
def reuse (inst : PrimitiveInstance ι) (entry : FinalizedImplementation ι) :
    PrimitiveInstance ι :=
  let inst := inst.adopt entry
  { inst with stats := { inst.stats with cacheHits := inst.stats.cacheHits + 1 } }

/-- Takes over a form that was just made. -/
def install (inst : PrimitiveInstance ι) (entry : FinalizedImplementation ι) :
    PrimitiveInstance ι :=
  let inst := inst.adopt entry
  { inst with stats := { inst.stats with finalizations := inst.stats.finalizations + 1 } }

/-- A failure of an implementation as one part of a reason. -/
def failureText (name : String) (error : BackendError) : String := name ++ ": " ++ error.message

/-- The first candidate that takes the extents and can be finalized, and what those in front of
it said. -/
def firstFinalizing (registry : Registry ι) (inst : PrimitiveInstance ι)
    (shapes : ConcreteShapes) :
    List Selection → ω → Option (FinalizedImplementation ι) × List String × ω
  | [], env => (none, [], env)
  | selection :: rest, env =>
    match registry.descriptor? selection.descriptor with
    | none => firstFinalizing registry inst shapes rest env
    | some descriptor =>
      let implementation := descriptor.instantiate inst.node
      if Implementation.supports implementation (inst.concreteInputs shapes)
          (inst.concreteOutputs shapes) then
        match Implementation.finalize implementation shapes inst.node.op env with
        | (.ok form, implementation, env) =>
          (some ⟨⟨selection.descriptor, implementation, selection.requiresConversion⟩, form⟩,
            [], env)
        | (.error error, _, env) =>
          let (found, failures, env) := firstFinalizing registry inst shapes rest env
          (found, failureText descriptor.name error :: failures, env)
      else firstFinalizing registry inst shapes rest env

/-- No implementation can be finalized for the extents. -/
def finalizationFailure (inst : PrimitiveInstance ι) (shapes : ConcreteShapes)
    (failures : List String) : RuntimeError :=
  .finalizationFailure inst.node.id inst.node.kind shapes.all
    (if failures = [] then "no candidate supports the concrete layouts"
      else "; ".intercalate failures)

/-- Changes over to another candidate; `failures` says what the bound implementation said. -/
def reselect (inst : PrimitiveInstance ι) (shapes : ConcreteShapes)
    (context : SpecializeContext ι) (failures : List String) (workspace : Workspace ι ω) :
    Except RuntimeError Bool × PrimitiveInstance ι × Workspace ι ω :=
  match context.registry.candidates inst.node inst.declaredInputs context.device with
  | .error error => (.error error, inst.markFailed, workspace)
  | .ok selections =>
    let others := selections.filter fun selection ↦ some selection.descriptor ≠ inst.descriptor?
    let (found, more, env) :=
      firstFinalizing context.registry inst shapes others workspace.environment
    let workspace := workspace.withEnvironment env
    match found with
    | some entry =>
      (.ok true, inst.install entry,
        workspace.keep (inst.signature, entry.form.shapes) entry)
    | none =>
      (.error (inst.finalizationFailure shapes (failures ++ more)), inst.markFailed, workspace)

/-- Finalizes the bound implementation when it takes the extents, or changes over to another. -/
def finalizeOrReselect (inst : PrimitiveInstance ι) (shapes : ConcreteShapes)
    (context : SpecializeContext ι) (workspace : Workspace ι ω) :
    Except RuntimeError Bool × PrimitiveInstance ι × Workspace ι ω :=
  match inst.bound with
  | none => inst.reselect shapes context [] workspace
  | some bound =>
    if inst.boundSupports shapes then
      match Implementation.finalize bound.implementation shapes inst.node.op
          workspace.environment with
      | (.ok form, implementation, env) =>
        let entry := ⟨{ bound with implementation }, form⟩
        (.ok false, inst.install entry,
          (workspace.withEnvironment env).keep (inst.signature, form.shapes) entry)
      | (.error error, implementation, env) =>
        { inst with bound := some { bound with implementation } }.reselect shapes context
          [failureText (Implementation.name implementation) error]
          (workspace.withEnvironment env)
    else inst.reselect shapes context [] workspace

/-- Makes the instance ready for the extents; answers whether the implementation changed.  While
the bound implementation takes the extents, only its own forms are taken from the cache. -/
def specialize (inst : PrimitiveInstance ι) (shapes : ConcreteShapes)
    (context : SpecializeContext ι) (workspace : Workspace ι ω) :
    Except RuntimeError Bool × PrimitiveInstance ι × Workspace ι ω :=
  let acceptable (entry : FinalizedImplementation ι) : Bool :=
    !inst.boundSupports shapes || inst.descriptor? = some entry.bound.descriptor
  match workspace.cached (inst.signature, shapes) acceptable with
  | (some entry, workspace) =>
    (.ok (inst.descriptor? ≠ some entry.bound.descriptor), inst.reuse entry, workspace)
  | (none, workspace) =>
    inst.finalizeOrReselect shapes context (workspace.scope Profile.finalizeScope)

/-- Makes the instance ready for the extents, whatever has to be done for it. -/
def prepare (inst : PrimitiveInstance ι) (shapes : ConcreteShapes)
    (context : SpecializeContext ι) (workspace : Workspace ι ω) :
    Except RuntimeError Transition × PrimitiveInstance ι × Workspace ι ω :=
  match inst.state with
  | .ready | .stale =>
    if inst.state = .ready && !inst.needsReshape shapes then (.ok .unchanged, inst, workspace)
    else
      match (inst.withState .stale).specialize shapes context workspace with
      | (.ok reselected, inst, workspace) =>
        let stats := { inst.stats with respecializations := inst.stats.respecializations + 1 }
        (.ok (.respecialized reselected), { inst with stats }, workspace)
      | (.error error, inst, workspace) => (.error error, inst, workspace)
  | .bound =>
    match inst.specialize shapes context workspace with
    | (.ok _, inst, workspace) => (.ok .finalized, inst, workspace)
    | (.error error, inst, workspace) => (.error error, inst, workspace)
  | .failed => (.error (.programPoisoned inst.node.id "instance failed earlier"), inst, workspace)
  | .unbound | .executing => (.error inst.notReady, inst, workspace)

end PrimitiveInstance

end TensorEngine
