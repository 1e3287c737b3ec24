import TensorEngine.Instance.Cache

/-!
# Instances

An instance is a node at run time: the implementation that it is bound to, the form for which that
implementation is finalized, its slots in the memory pool and what has happened to it so far.
-/

namespace TensorEngine

/-- What has happened to an instance. -/
structure InstanceStats where
  finalizations : Nat := 0
  respecializations : Nat := 0
  /-- Changes to another implementation after the first. -/
  reselections : Nat := 0
  /-- Finalized implementations taken from the cache. -/
  cacheHits : Nat := 0
  executions : Nat := 0
deriving DecidableEq, Repr, Inhabited

namespace InstanceStats

def text (stats : InstanceStats) : String :=
  Text.record "InstanceStats"
    [("finalizations", toString stats.finalizations),
      ("respecializations", toString stats.respecializations),
      ("reselections", toString stats.reselections),
      ("impl_cache_hits", toString stats.cacheHits),
      ("executions", toString stats.executions)]

end InstanceStats

/-- A node at run time. -/
structure PrimitiveInstance (ι : Type) where
  node : Node
  declaredInputs : List Layout
  /-- How far it has come. -/
  state : InstanceState := .unbound
  bound : Option (BoundImplementation ι) := none
  form : Option FinalizedForm := none
  inputSlots : List Nat := []
  outputSlot : Option Nat := none
  stats : InstanceStats := {}
deriving DecidableEq, Repr, Inhabited

namespace PrimitiveInstance

variable {ι ω : Type} [Implementation ι ω]

def ofNode (node : Node) (declaredInputs : List Layout) : PrimitiveInstance ι :=
  { node, declaredInputs }

/-- A ready instance with an implementation whose finalized state was read back. -/
def restored (node : Node) (declaredInputs : List Layout) (descriptor : DescriptorId)
    (implementation : ι) (form : FinalizedForm) : PrimitiveInstance ι :=
  { node, declaredInputs
    state := .ready
    bound := some ⟨descriptor, implementation, false⟩
    form := some form }

/-- The fingerprint of what a compiled form of the node depends on. -/
def signature (inst : PrimitiveInstance ι) : UInt64 := inst.node.signature inst.declaredInputs

/-- The place of the descriptor of the bound implementation. -/
def descriptor? (inst : PrimitiveInstance ι) : Option DescriptorId :=
  inst.bound.map BoundImplementation.descriptor

def implementation? (inst : PrimitiveInstance ι) : Option ι :=
  inst.bound.map BoundImplementation.implementation

def implementationName? (inst : PrimitiveInstance ι) : Option String :=
  inst.implementation?.map Implementation.name

/-- Whether the bound implementation takes the layouts only after a conversion. -/
def requiresConversion (inst : PrimitiveInstance ι) : Bool :=
  (inst.bound.map BoundImplementation.requiresConversion).getD false

/-- Whether the instance is not finalized for some extents. -/
def needsReshape (inst : PrimitiveInstance ι) (shapes : ConcreteShapes) : Bool :=
  inst.form.map FinalizedForm.shapes ≠ some shapes

def withState (inst : PrimitiveInstance ι) (state : InstanceState) : PrimitiveInstance ι :=
  { inst with state }

/-- The instance after a failure that only a rebuild repairs. -/
def markFailed (inst : PrimitiveInstance ι) : PrimitiveInstance ι := inst.withState .failed

def attachSlots (inst : PrimitiveInstance ι) (inputSlots : List Nat) (outputSlot : Nat) :
    PrimitiveInstance ι :=
  { inst with inputSlots, outputSlot := some outputSlot }

def text (inst : PrimitiveInstance ι) : String :=
  Text.record "PrimitiveInstance"
    [("node", inst.node.id.constructorText), ("op", inst.node.kind.name),
      ("state", inst.state.name),
      ("implementation", Text.option (inst.implementationName?.map Text.quoted)),
      ("stats", inst.stats.text)]

/-! ## Binding -/

/-- The first candidate whose new implementation takes the layouts. -/
def firstSupporting (registry : Registry ι) (node : Node) (inputs outputs : List Layout)
    (selections : List Selection) : Option (BoundImplementation ι) :=
  selections.findSome? fun selection ↦ do
    let descriptor ← registry.descriptor? selection.descriptor
    let implementation := descriptor.instantiate node
    if Implementation.supports implementation inputs outputs then
      some ⟨selection.descriptor, implementation, selection.requiresConversion⟩
    else none

/-- Binds the first candidate that takes the declared layouts. -/
def bind (inst : PrimitiveInstance ι) (registry : Registry ι) (device : DeviceCaps) :
    Except RuntimeError Unit × PrimitiveInstance ι :=
  let selections := registry.selections inst.node inst.declaredInputs device
  match firstSupporting registry inst.node inst.declaredInputs inst.node.outputs selections with
  | some bound => (.ok (), { inst with bound := some bound, state := .bound })
  | none => (.error (Registry.incompatible inst.node inst.declaredInputs), inst.markFailed)

/-! ## Running -/

def notReady (inst : PrimitiveInstance ι) : RuntimeError := .notReady inst.node.id inst.state

def beginExecute (inst : PrimitiveInstance ι) : Except RuntimeError (PrimitiveInstance ι) :=
  if inst.state = .ready then .ok (inst.withState .executing) else .error inst.notReady

def finishExecute (inst : PrimitiveInstance ι) : PrimitiveInstance ι :=
  { inst with
    state := .ready
    stats := { inst.stats with executions := inst.stats.executions + 1 } }

/-- The instance after a run that failed without damage. -/
def abortExecute (inst : PrimitiveInstance ι) : PrimitiveInstance ι :=
  if inst.state = .executing then inst.withState .ready else inst

end PrimitiveInstance

end TensorEngine
