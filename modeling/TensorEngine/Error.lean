import TensorEngine.Backend

/-!
# Errors of the engine

Every way in which building or running a program can fail, with the messages that are reported.
Some failures poison a program: its state can no longer be trusted, and it has to be rebuilt.

A failure may name the state of an instance:

```
unbound → bound → ready ↔ stale
            |       |
            |       +→ executing → ready
            +→ failed
```

An instance becomes failed from any state; only a rebuild leads out of it.
-/

namespace TensorEngine

/-- How far an instance has come. -/
inductive InstanceState where
  | unbound
  | bound
  | ready
  | stale
  | executing
  | failed
deriving DecidableEq, Repr, Inhabited

def InstanceState.name : InstanceState → String
  | .unbound => "Unbound"
  | .bound => "Bound"
  | .ready => "Ready"
  | .stale => "Stale"
  | .executing => "Executing"
  | .failed => "Failed"

inductive RuntimeError where
  | noCompatibleImplementation (node : NodeId) (op : OperationKind) (layouts : String)
  | finalizationFailure (node : NodeId) (op : OperationKind) (shapes : List Dims)
      (reason : String)
  | allocationFailure (requested slot : Nat) (reason : String)
  | incompatibleArtifact (node : NodeId) (reason : String)
  | executionFailure (node : NodeId) (op : OperationKind) (shapes : List Dims)
      (source : BackendError)
  | invalidGraph (reason : String)
  | shapeOutOfRange (node : NodeId) (expected : Shape) (actual : Dims)
  | missingBinding (node : NodeId)
  /-- The key already has an implementation of that name or with the same supported set. -/
  | duplicateImplementation (name : String) (op : OperationKind) (backend : BackendKind)
  | incompleteRegistry (missing : List OperationKind)
  | registryNotInitialized
  | registryAlreadyInitialized
  | programPoisoned (node : NodeId) (reason : String)
  | aborted (completed : Nat)
  | notReady (node : NodeId) (state : InstanceState)
  /-- The call breaks down; it reports no failure and leaves the program as it is. -/
  | panicked (message : String)
deriving DecidableEq, Repr

namespace RuntimeError

def name : RuntimeError → String
  | .noCompatibleImplementation .. => "NoCompatibleImplementation"
  | .finalizationFailure .. => "FinalizationFailure"
  | .allocationFailure .. => "AllocationFailure"
  | .incompatibleArtifact .. => "IncompatibleArtifact"
  | .executionFailure .. => "ExecutionFailure"
  | .invalidGraph .. => "InvalidGraph"
  | .shapeOutOfRange .. => "ShapeOutOfRange"
  | .missingBinding .. => "MissingBinding"
  | .duplicateImplementation .. => "DuplicateImplementation"
  | .incompleteRegistry .. => "IncompleteRegistry"
  | .registryNotInitialized => "RegistryNotInitialized"
  | .registryAlreadyInitialized => "RegistryAlreadyInitialized"
  | .programPoisoned .. => "ProgramPoisoned"
  | .aborted .. => "Aborted"
  | .notReady .. => "NotReady"
  | .panicked .. => "Panic"

def message : RuntimeError → String
  | .noCompatibleImplementation node op layouts =>
    s!"no compatible implementation for node {node.text} ({op.name}) with layouts {layouts}"
  | .finalizationFailure node op shapes reason =>
    s!"finalization of node {node.text} ({op.name}) failed for shapes {shapesText shapes}: {reason}"
  | .allocationFailure requested slot reason =>
    s!"allocating {requested} bytes for slot {slot} failed: {reason}"
  | .incompatibleArtifact node reason => s!"artifact for node {node.text} rejected: {reason}"
  | .executionFailure node op shapes source =>
    s!"execution of node {node.text} ({op.name}) failed for shapes {shapesText shapes}: "
      ++ source.message
  | .invalidGraph reason => s!"invalid graph: {reason}"
  | .shapeOutOfRange node expected actual =>
    s!"node {node.text} expects extents within {expected.text}, got {dimsText actual}"
  | .missingBinding node => s!"no binding supplied for parameter {node.text}"
  | .duplicateImplementation name op backend =>
    s!"implementation {name} for {op.name} on {backend.name} duplicates an existing registration"
  | .incompleteRegistry missing =>
    "registry has no reference implementation for "
      ++ Text.list (missing.map OperationKind.name)
  | .registryNotInitialized => "implementation registry has not been installed"
  | .registryAlreadyInitialized => "implementation registry is already installed"
  | .programPoisoned node reason =>
    s!"program is poisoned by node {node.text}: {reason}; rebuild it before executing"
  | .aborted completed => s!"execution aborted after {completed} instances"
  | .notReady node state => s!"node {node.text} is {state.name}, not ready"
  | .panicked message => message

/-- Whether the state of a program can no longer be trusted after the failure. -/
def poisonsProgram : RuntimeError → Bool
  | .finalizationFailure .. | .noCompatibleImplementation .. | .allocationFailure .. => true
  | .executionFailure _ _ _ source => source.isCorrupting
  | _ => false

def node? : RuntimeError → Option NodeId
  | .noCompatibleImplementation node .. | .finalizationFailure node ..
  | .incompatibleArtifact node _ | .executionFailure node .. | .shapeOutOfRange node ..
  | .missingBinding node | .programPoisoned node _ | .notReady node _ => some node
  | _ => none

def ofGraph (error : GraphError) : RuntimeError := .invalidGraph error.message

end RuntimeError

end TensorEngine
