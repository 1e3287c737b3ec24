import TensorEngine.Catalogue.Reference

/-!
# Scripted implementations

Reference implementations under another name that follow a script: they decline layouts, refuse
to be finalized, fail or break down while they run, or ask for the run to be cancelled.  A script
names the calls on which it interferes, so every way around a failure can be reached on purpose.
-/

namespace TensorEngine

/-- What a script does in place of a call, or in front of it. -/
inductive Disturbance where
  /-- The call ends here. -/
  | stop (fault : Fault)
  /-- The run is cancelled, and the call goes on. -/
  | cancel
deriving DecidableEq, Repr

/-- When and how an implementation is disturbed. -/
structure Script where
  supports : Bool := true
  /-- Layouts with a larger known extent are declined. -/
  maxExtent : Option Extent := none
  finalize : Option Disturbance := none
  /-- Only extents above this disturb finalizing. -/
  finalizeOver : Option Extent := none
  /-- The first call that is disturbed. -/
  finalizeFrom : Option Nat := none
  /-- In front of running. -/
  execute : Option Disturbance := none
  /-- The calls that are disturbed; all of them when it is left out. -/
  executeOn : Option (List Nat) := none
  /-- In front of writing down. -/
  serialize : Option Disturbance := none
  /-- In front of reading back. -/
  deserialize : Option Disturbance := none
deriving DecidableEq, Repr, Inhabited

/-- What scripted implementations have done so far.  A script is known by its number. -/
structure ScriptLog where
  /-- One entry for each call of finalizing. -/
  finalized : List Nat := []
  /-- One entry for each run. -/
  executed : List Nat := []
  cancelled : Bool := false
deriving DecidableEq, Repr, Inhabited

namespace Disturbance

/-- The fault that ends a call, if it is to end, and the log after it. -/
def apply (disturbance : Option Disturbance) (log : ScriptLog) : Option Fault × ScriptLog :=
  match disturbance with
  | none => (none, log)
  | some (.stop fault) => (some fault, log)
  | some .cancel => (none, { log with cancelled := true })

end Disturbance

/-- A fault outside a run; breaking down leaves the device in an unknown state. -/
def Fault.toError : Fault → BackendError
  | .refused error => error
  | .panicked message => .corrupted message

structure ScriptedRole where
  number : Nat
  name : String
  backend : BackendKind
  script : Script
deriving DecidableEq, Repr, Inhabited

/-- A reference implementation that follows a script. -/
structure ScriptedImplementation where
  role : ScriptedRole
  inner : ReferenceImplementation
deriving DecidableEq, Repr, Inhabited

namespace ScriptedImplementation

/-- Whether the script lets a layout pass. -/
def admits (script : Script) (layout : Layout) : Bool :=
  match script.maxExtent with
  | none => true
  | some bound => layout.shape.dims.all fun dim ↦
    match dim.fixed? with
    | some extent => extent ≤ bound
    | none => true

/-- Whether the script and the reference implementation take the layouts. -/
def supports (impl : ScriptedImplementation) (inputs outputs : List Layout) : Bool :=
  impl.role.script.supports && (inputs ++ outputs).all (admits impl.role.script)
    && impl.inner.supports inputs outputs

def form (impl : ScriptedImplementation) (shapes : ConcreteShapes) : FinalizedForm :=
  .ofParams impl.role.name shapes []

/-- The disturbance of the `call`-th finalizing. -/
def finalizeDisturbance (script : Script) (shapes : ConcreteShapes) (call : Nat) :
    Option Disturbance :=
  let large := match script.finalizeOver with
    | some bound => shapes.all.any fun dims ↦ dims.any (bound < ·)
    | none => true
  let due := match script.finalizeFrom with
    | some first => first ≤ call
    | none => true
  if large && due then script.finalize else none

/-- The disturbance of the `call`-th run. -/
def executeDisturbance (script : Script) (call : Nat) : Option Disturbance :=
  match script.executeOn with
  | some calls => if call ∈ calls then script.execute else none
  | none => script.execute

def finalize (impl : ScriptedImplementation) (shapes : ConcreteShapes) (op : OpSpec)
    (log : ScriptLog) : Except BackendError FinalizedForm × ScriptedImplementation × ScriptLog :=
  let log := { log with finalized := impl.role.number :: log.finalized }
  let call := log.finalized.count impl.role.number
  match Disturbance.apply (finalizeDisturbance impl.role.script shapes call) log with
  | (some fault, log) => (.error fault.toError, impl, log)
  | (none, log) =>
    let (result, inner) := impl.inner.finalize shapes op
    (result.map fun _ ↦ impl.form shapes, { impl with inner }, log)

def execute (impl : ScriptedImplementation) (inputs outputs : List TensorView)
    (log : ScriptLog) : Except Fault Unit × List TensorData × ScriptLog :=
  let log := { log with executed := impl.role.number :: log.executed }
  let call := log.executed.count impl.role.number
  match Disturbance.apply (executeDisturbance impl.role.script call) log with
  | (some fault, log) => (.error fault, outputs.map TensorView.data, log)
  | (none, log) =>
    let (result, outputs) := impl.inner.execute inputs outputs
    (result, outputs, log)

/-- The written form of the reference implementation. -/
def serialize (impl : ScriptedImplementation) : Except BackendError Bytes :=
  match impl.role.script.serialize with
  | some (.stop fault) => .error fault.toError
  | some .cancel | none => impl.inner.serialize

/-- Takes over a written form of the reference implementation. -/
def deserialize (impl : ScriptedImplementation) (payload : Bytes) (log : ScriptLog) :
    Except BackendError FinalizedForm × ScriptedImplementation × ScriptLog :=
  match Disturbance.apply impl.role.script.deserialize log with
  | (some fault, log) => (.error fault.toError, impl, log)
  | (none, log) =>
    let (result, inner) := impl.inner.deserialize payload
    (result.map fun form ↦ impl.form form.shapes, { impl with inner }, log)

instance : Implementation ScriptedImplementation ScriptLog where
  name impl := impl.role.name
  backend impl := impl.role.backend
  supports := supports
  finalize := finalize
  execute := execute
  serialize := serialize
  deserialize := deserialize

def descriptor (role : ScriptedRole) (op : OperationKind) (version : UInt32) (priority : Int)
    (supported : List (DType × Format)) : Descriptor ScriptedImplementation :=
  { name := role.name
    op, backend := role.backend, version, priority
    supported := Descriptor.dedup supported
    instantiate := fun node ↦ ⟨role, .ofNode node⟩ }

end ScriptedImplementation

end TensorEngine
