import TensorEngine.Graph

/-!
# The contract of implementations

An implementation runs the operations of one kind.  It is created for a node, finalized for
concrete extents, and then executed any number of times; its finalized state can be written down
and read back.  The class `Implementation` states what the engine may ask of a type `ι` of
implementations that live in an environment of type `ω`: whatever an implementation remembers
outside itself, such as plans shared between instances, is in the environment.
-/

namespace TensorEngine

open Wire Fingerprint

/-- Families of implementations, the preferred ones first. -/
inductive BackendKind where
  | vendorLibrary
  | genericKernel
  | reference
deriving DecidableEq, Repr, Inhabited

namespace BackendKind

instance : Enumerated BackendKind := ⟨[.vendorLibrary, .genericKernel, .reference]⟩

def all : List BackendKind := Enumerated.values

/-- The place in the order of preference. -/
def rank (backend : BackendKind) : Nat := Enumerated.tag backend

/-- The name of a family in keys and listings. -/
def label : BackendKind → String
  | .vendorLibrary => "vendor"
  | .genericKernel => "generic"
  | .reference => "reference"

def name : BackendKind → String
  | .vendorLibrary => "VendorLibrary"
  | .genericKernel => "GenericKernel"
  | .reference => "Reference"

end BackendKind

/-- Failures that an implementation reports. -/
inductive BackendError where
  /-- The operation `op` is not available. -/
  | unimplemented (op reason : String)
  /-- A run failed; the implementation can be used again. -/
  | execution (message : String)
  /-- A written form is unusable. -/
  | payload (message : String)
  /-- The state of the device is no longer trustworthy. -/
  | corrupted (message : String)
deriving DecidableEq, Repr

namespace BackendError

/-- Whether the device can no longer be trusted. -/
def isCorrupting : BackendError → Bool
  | .corrupted _ => true
  | .unimplemented _ _ | .execution _ | .payload _ => false

def name : BackendError → String
  | .unimplemented .. => "Unimplemented"
  | .execution .. => "Execution"
  | .payload .. => "Payload"
  | .corrupted .. => "Corrupted"

def message : BackendError → String
  | .unimplemented op reason => s!"{op} is not implemented: {reason}"
  | .execution message => s!"backend execution failure: {message}"
  | .payload message => s!"invalid backend payload: {message}"
  | .corrupted message => s!"backend state corrupted: {message}"

/-- A failed access to tensor data as a failure of the run. -/
def ofAccess (error : TensorData.AccessError) : BackendError := .execution error.message

/-- A value that cannot be read as an unusable written form. -/
def ofWire (error : Wire.Error) : BackendError := .payload error.message

end BackendError

/-- How a run can end early: with a reported failure, or by breaking down. -/
inductive Fault where
  | refused (error : BackendError)
  | panicked (message : String)
deriving DecidableEq, Repr

/-- Concrete extents of one invocation of a node. -/
structure ConcreteShapes where
  inputs : List Dims
  outputs : List Dims
deriving DecidableEq, Repr, Inhabited

namespace ConcreteShapes

def pin (declared : List Layout) (dims : List Dims) : List Layout :=
  (declared.zip dims).map fun (layout, dims) ↦ layout.concretize dims

/-- All extents, those of the operands first. -/
def all (shapes : ConcreteShapes) : List Dims := shapes.inputs ++ shapes.outputs

def text (shapes : ConcreteShapes) : String :=
  Text.record "ConcreteShapes"
    [("inputs", shapesText shapes.inputs), ("outputs", shapesText shapes.outputs)]

instance : Encode ConcreteShapes := ⟨fun shapes ↦ encode shapes.inputs ++ encode shapes.outputs⟩

instance : Decode ConcreteShapes := ⟨return ⟨← Decode.read, ← Decode.read⟩⟩

end ConcreteShapes

/-- What the engine sees of a finalized implementation. -/
structure FinalizedForm where
  /-- The kernel that the implementation chose. -/
  kernel : String
  /-- The fingerprint of kernel, extents and parameters. -/
  fingerprint : UInt64
  shapes : ConcreteShapes
deriving DecidableEq, Repr, Inhabited

namespace FinalizedForm

/-- The bytes behind the fingerprint of a form, for parameters with the given written form. -/
def fingerprintBytes (kernel : String) (shapes : ConcreteShapes) (params : Bytes) : Bytes :=
  frameText kernel ++ frameOf shapes ++ frame params

/-- The form of a kernel for some extents, with parameters that are given by their written
form. -/
def ofParams (kernel : String) (shapes : ConcreteShapes) (params : Bytes) : FinalizedForm :=
  ⟨kernel, ofBytes (fingerprintBytes kernel shapes params), shapes⟩

end FinalizedForm

/-- An argument of a kernel: extents and elements. -/
structure TensorView where
  dims : Dims
  data : TensorData
deriving DecidableEq, Repr, Inhabited

/-- The type `ι` holds implementations that live in an environment `ω`. -/
class Implementation (ι : Type) (ω : outParam Type) where
  name : ι → String
  backend : ι → BackendKind
  /-- Whether it can handle these layouts of operands and results. -/
  supports : ι → List Layout → List Layout → Bool
  finalize : ι → ConcreteShapes → OpSpec → ω → Except BackendError FinalizedForm × ι × ω
  /-- Runs on operands and results; the results come with their old elements and are answered
  with their new ones, also when the run fails half-way. -/
  execute : ι → List TensorView → List TensorView → ω → Except Fault Unit × List TensorData × ω
  serialize : ι → Except BackendError Bytes
  /-- Takes over a finalized state that was written down. -/
  deserialize : ι → Bytes → ω → Except BackendError FinalizedForm × ι × ω

end TensorEngine
