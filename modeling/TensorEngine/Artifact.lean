import TensorEngine.Artifact.Blob
import TensorEngine.Instance

/-!
# Artifacts of instances

A ready instance is written down as a blob and read back for the same node.  Everything that the
payload was compiled against is checked first, so a blob that does not fit is rejected and never
run.
-/

namespace TensorEngine

namespace RuntimeError

/-- An artifact that cannot be used for a node. -/
def ofArtifact (node : NodeId) (error : ArtifactError) : RuntimeError :=
  .incompatibleArtifact node error.message

/-- A payload that cannot be written or read for a node. -/
def ofPayload (node : NodeId) (error : BackendError) : RuntimeError :=
  .incompatibleArtifact node error.message

end RuntimeError

namespace ArtifactHeader

def checkField {α : Type} [DecidableEq α] (field : String) (text : α → String)
    (stored current : α) : Except ArtifactError Unit :=
  if stored = current then .ok () else .error (.mismatch field (text stored) (text current))

def checkAgainst (header : ArtifactHeader) (node : Node) (declaredInputs : List Layout)
    (device : DeviceCaps) : Except ArtifactError Unit := do
  checkField "device fingerprint" toString header.deviceFingerprint device.fingerprint
  checkField "operation" OperationKind.label header.op node.kind
  checkField "node signature" toString header.nodeSignature (node.signature declaredInputs)
  if !device.enables header.backend then
    throw (.mismatch "backend" header.backend.label "disabled on this device")

/-- The descriptor of the stored implementation, when it has the stored version. -/
def resolve {ι : Type} (header : ArtifactHeader) (registry : Registry ι) :
    Except ArtifactError (DescriptorId × Descriptor ι) := do
  let resolved := do
    let id ← registry.lookup header.op header.backend header.implementation
    return (id, ← registry.descriptor? id)
  match resolved with
  | none => throw (.mismatch "implementation" header.implementation "not registered")
  | some (id, descriptor) =>
    checkField "implementation version" toString header.version descriptor.version
    return (id, descriptor)

/-- Checks that the form that was read back has the stored extents. -/
def checkForm (header : ArtifactHeader) (form : FinalizedForm) : Except ArtifactError Unit :=
  checkField "shapes" ConcreteShapes.text header.shapes form.shapes

end ArtifactHeader

namespace PrimitiveInstance

variable {ι ω : Type} [Implementation ι ω]

/-- Writes a ready instance down. -/
def toArtifact (inst : PrimitiveInstance ι) (registry : Registry ι) (device : DeviceCaps) :
    Except RuntimeError ArtifactBlob := do
  if inst.state ≠ .ready then throw inst.notReady
  let some bound := inst.bound | throw inst.notReady
  let some form := inst.form | throw inst.notReady
  let some descriptor := registry.descriptor? bound.descriptor | throw inst.notReady
  let payload ← (Implementation.serialize bound.implementation).mapError
    (.ofPayload inst.node.id)
  return .ofParts
    { backend := descriptor.backend
      implementation := descriptor.name
      version := descriptor.version
      deviceFingerprint := device.fingerprint
      op := inst.node.kind
      nodeSignature := inst.signature
      shapes := form.shapes }
    payload

/-- The descriptor that a blob asks for, once its header fits the node and the device. -/
def artifactDescriptor (blob : ArtifactBlob) (node : Node) (declaredInputs : List Layout)
    (registry : Registry ι) (device : DeviceCaps) :
    Except ArtifactError (DescriptorId × Descriptor ι) := do
  blob.header.checkAgainst node declaredInputs device
  blob.header.resolve registry

/-- Reads an instance back for a node, ready to run. -/
def ofArtifact (blob : ArtifactBlob) (node : Node) (declaredInputs : List Layout)
    (registry : Registry ι) (device : DeviceCaps) (env : ω) :
    Except RuntimeError (PrimitiveInstance ι) × ω :=
  match artifactDescriptor blob node declaredInputs registry device with
  | .error error => (.error (.ofArtifact node.id error), env)
  | .ok (id, descriptor) =>
    match Implementation.deserialize (descriptor.instantiate node) blob.payload env with
    | (.error error, _, env) => (.error (.ofPayload node.id error), env)
    | (.ok form, implementation, env) =>
      match blob.header.checkForm form with
      | .error error => (.error (.ofArtifact node.id error), env)
      | .ok () => (.ok (restored node declaredInputs id implementation form), env)

end PrimitiveInstance

end TensorEngine
