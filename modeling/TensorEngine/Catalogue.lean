import TensorEngine.Catalogue.Failing
import TensorEngine.Catalogue.Gemm
import TensorEngine.Catalogue.Limited
import TensorEngine.Catalogue.Parallel
import TensorEngine.Catalogue.Scripted

/-!
# The catalogue of implementations

All implementations together, so that a registry may hold any of them:

| implementation | family | runs |
|---|---|---|
| reference | reference | every kind |
| parallel | generic | elementwise operations and reductions |
| gemm | vendor | matrix products |
| limited | generic | binary operations within a bound |
| failing | generic or reference | nothing |
| scripted | any | what its script lets pass |
-/

namespace TensorEngine

inductive CatalogueImplementation where
  | reference (impl : ReferenceImplementation)
  | parallel (impl : ParallelImplementation)
  | gemm (impl : GemmImplementation)
  | limited (impl : LimitedImplementation)
  | failing (impl : FailingImplementation)
  | scripted (impl : ScriptedImplementation)
deriving DecidableEq, Repr

/-- What implementations of the catalogue remember outside themselves. -/
structure Environment where
  /-- The plans that the parallel implementations share. -/
  plans : PlanTable := {}
  /-- What scripted implementations have done. -/
  log : ScriptLog := {}
deriving DecidableEq, Repr, Inhabited

namespace Environment

def cancelled (env : Environment) : Bool := env.log.cancelled

/-- The same environment in front of a run that is cancelled or not. -/
def withCancelled (env : Environment) (cancelled : Bool) : Environment :=
  { env with log := { env.log with cancelled } }

end Environment

namespace CatalogueImplementation

/-- The name under which an implementation is known. -/
def name : CatalogueImplementation → String
  | .reference impl => impl.name
  | .parallel impl => impl.name
  | .gemm _ => GemmImplementation.kernelName
  | .limited _ => LimitedImplementation.kernelName
  | .failing _ => FailingImplementation.kernelName
  | .scripted impl => impl.role.name

/-- The family that an implementation belongs to. -/
def backend : CatalogueImplementation → BackendKind
  | .reference _ => .reference
  | .parallel _ | .limited _ => .genericKernel
  | .gemm _ => .vendorLibrary
  | .failing impl => impl.backend
  | .scripted impl => impl.role.backend

/-- Whether an implementation can handle the layouts. -/
def supports : CatalogueImplementation → List Layout → List Layout → Bool
  | .reference impl => impl.supports
  | .parallel impl => impl.supports
  | .gemm impl => impl.supports
  | .limited impl => impl.supports
  | .failing _ => FailingImplementation.supports
  | .scripted impl => impl.supports

/-- An answer about an implementation that leaves the environment alone. -/
def pureAnswer {α β ι : Type} (wrap : ι → β) (env : Environment) (answer : α × ι × Unit) :
    α × β × Environment :=
  (answer.1, wrap answer.2.1, env)

/-- An answer about an implementation that may have changed the shared plans. -/
def planAnswer {α β ι : Type} (wrap : ι → β) (env : Environment) (answer : α × ι × PlanTable) :
    α × β × Environment :=
  (answer.1, wrap answer.2.1, { env with plans := answer.2.2 })

/-- An answer about an implementation that may have changed the log. -/
def logAnswer {α β ι : Type} (wrap : ι → β) (env : Environment) (answer : α × ι × ScriptLog) :
    α × β × Environment :=
  (answer.1, wrap answer.2.1, { env with log := answer.2.2 })

instance : Implementation CatalogueImplementation Environment where
  name := name
  backend := backend
  supports := supports
  finalize impl shapes op env :=
    match impl with
    | .reference impl => pureAnswer .reference env (Implementation.finalize impl shapes op ())
    | .parallel impl =>
      planAnswer .parallel env (Implementation.finalize impl shapes op env.plans)
    | .gemm impl => pureAnswer .gemm env (Implementation.finalize impl shapes op ())
    | .limited impl => pureAnswer .limited env (Implementation.finalize impl shapes op ())
    | .failing impl => pureAnswer .failing env (Implementation.finalize impl shapes op ())
    | .scripted impl => logAnswer .scripted env (Implementation.finalize impl shapes op env.log)
  execute impl inputs outputs env :=
    match impl with
    | .reference impl => pureAnswer id env (Implementation.execute impl inputs outputs ())
    | .parallel impl => planAnswer id env (Implementation.execute impl inputs outputs env.plans)
    | .gemm impl => pureAnswer id env (Implementation.execute impl inputs outputs ())
    | .limited impl => pureAnswer id env (Implementation.execute impl inputs outputs ())
    | .failing impl => pureAnswer id env (Implementation.execute impl inputs outputs ())
    | .scripted impl => logAnswer id env (Implementation.execute impl inputs outputs env.log)
  serialize
    | .reference impl => Implementation.serialize impl
    | .parallel impl => Implementation.serialize impl
    | .gemm impl => Implementation.serialize impl
    | .limited impl => Implementation.serialize impl
    | .failing impl => Implementation.serialize impl
    | .scripted impl => Implementation.serialize impl
  deserialize impl payload env :=
    match impl with
    | .reference impl => pureAnswer .reference env (Implementation.deserialize impl payload ())
    | .parallel impl =>
      planAnswer .parallel env (Implementation.deserialize impl payload env.plans)
    | .gemm impl => pureAnswer .gemm env (Implementation.deserialize impl payload ())
    | .limited impl => pureAnswer .limited env (Implementation.deserialize impl payload ())
    | .failing impl => pureAnswer .failing env (Implementation.deserialize impl payload ())
    | .scripted impl => logAnswer .scripted env (Implementation.deserialize impl payload env.log)

/-! ## Descriptors -/

def referenceDescriptors : List (Descriptor CatalogueImplementation) :=
  ReferenceImplementation.descriptors.map (·.map .reference)

/-- The descriptors of the reference implementations except for some kinds, with another
version. -/
def referenceDescriptorsExcept (kinds : List OperationKind) (version : UInt32) :
    List (Descriptor CatalogueImplementation) :=
  (referenceDescriptors.filter (·.op ∉ kinds)).map fun descriptor ↦ { descriptor with version }

def parallelDescriptors : List (Descriptor CatalogueImplementation) :=
  ParallelImplementation.descriptors.map (·.map .parallel)

def gemmDescriptor : Descriptor CatalogueImplementation :=
  GemmImplementation.descriptor.map .gemm

def limitedDescriptor : Descriptor CatalogueImplementation :=
  LimitedImplementation.descriptor.map .limited

/-- The descriptor of the implementation that cannot be finalized. -/
def failingDescriptor (backend : BackendKind) : Descriptor CatalogueImplementation :=
  (FailingImplementation.descriptor backend).map .failing

end CatalogueImplementation

end TensorEngine
