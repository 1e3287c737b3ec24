import TensorEngine.Artifact
import TensorEngine.Proofs.Sequencing

/-!
# Reading artifacts back

A blob is read back for a node once its header fits the node and the device, the implementation it
asks for is registered in the stored version, the payload can be taken over, and the form that
comes out has the extents of the header.  A blob that fails one of these is incompatible with the
node.
-/

namespace TensorEngine

variable {ι ω : Type} {blob : ArtifactBlob} {header : ArtifactHeader} {node : Node}
  {declared : List Layout} {registry : Registry ι} {device : DeviceCaps} {env env' : ω}
  {inst : PrimitiveInstance ι} {id : DescriptorId} {descriptor : Descriptor ι}

namespace ArtifactHeader

theorem checkField_eq_ok_iff {α : Type} [DecidableEq α] {field : String} {text : α → String}
    {stored current : α} {u : Unit} :
    checkField field text stored current = .ok u ↔ stored = current := by
  unfold checkField
  split <;> simp [*]

/-- What a header says about the node and the device that it was written for. -/
structure Fits (header : ArtifactHeader) (node : Node) (declared : List Layout)
    (device : DeviceCaps) : Prop where
  device_eq : header.deviceFingerprint = device.fingerprint
  op_eq : header.op = node.kind
  signature_eq : header.nodeSignature = node.signature declared
  enabled : device.enables header.backend = true

theorem checkAgainst_eq_ok_iff {u : Unit} :
    header.checkAgainst node declared device = .ok u ↔ header.Fits node declared device := by
  unfold checkAgainst
  simp only [bind_eq_ok_iff, checkField_eq_ok_iff]
  constructor
  · rintro ⟨_, hdevice, _, hop, _, hsignature, h⟩
    split at h
    · cases h
    · rename_i henabled
      exact ⟨hdevice, hop, hsignature, by simpa using henabled⟩
  · rintro ⟨hdevice, hop, hsignature, henabled⟩
    exact ⟨(), hdevice, (), hop, (), hsignature, by simp [henabled]⟩

/-- The descriptor that a header asks for. -/
structure Asks (header : ArtifactHeader) (registry : Registry ι) (id : DescriptorId)
    (descriptor : Descriptor ι) : Prop where
  lookup_eq : registry.lookup header.op header.backend header.implementation = some id
  descriptor_eq : registry.descriptor? id = some descriptor
  version_eq : header.version = descriptor.version

theorem resolve_eq_ok_iff :
    header.resolve registry = .ok (id, descriptor) ↔ header.Asks registry id descriptor := by
  unfold resolve
  simp only [Option.bind_eq_bind, Option.pure_def]
  constructor
  · intro h
    split at h
    · cases h
    · rename_i hresolved
      obtain ⟨_, hcheck, h⟩ := bind_eq_ok_iff.1 h
      obtain ⟨rfl, rfl⟩ := Prod.mk.inj (Except.ok.inj h)
      simp only [Option.bind_eq_some_iff, Option.some.injEq, Prod.mk.injEq] at hresolved
      obtain ⟨_, hlookup, _, hdescriptor, rfl, rfl⟩ := hresolved
      exact ⟨hlookup, hdescriptor, checkField_eq_ok_iff.1 hcheck⟩
  · rintro ⟨hlookup, hdescriptor, hversion⟩
    simp only [hlookup, hdescriptor, Option.bind_some,
      (checkField_eq_ok_iff (u := ())).2 hversion, ok_bind, pure_eq_ok]

/-- The descriptor that a header asks for is the one it names. -/
theorem Asks.named (h : header.Asks registry id descriptor) :
    descriptor.op = header.op ∧ descriptor.backend = header.backend ∧
      descriptor.name = header.implementation := by
  obtain ⟨hlt, hfound, _⟩ := List.findIdx?_eq_some_iff_getElem.1 h.lookup_eq
  have hdescriptor := h.descriptor_eq
  rw [Registry.descriptor?, List.getElem?_eq_getElem hlt, Option.some.injEq] at hdescriptor
  rw [hdescriptor] at hfound
  simpa [and_assoc] using hfound

end ArtifactHeader

namespace PrimitiveInstance

theorem artifactDescriptor_eq_ok_iff :
    artifactDescriptor blob node declared registry device = .ok (id, descriptor) ↔
      blob.header.Fits node declared device ∧ blob.header.Asks registry id descriptor := by
  unfold artifactDescriptor
  simp only [bind_eq_ok_iff, ArtifactHeader.checkAgainst_eq_ok_iff,
    ArtifactHeader.resolve_eq_ok_iff, exists_const]

variable [Implementation ι ω]

/-- How an instance comes out of a blob. -/
structure ReadsBack (blob : ArtifactBlob) (node : Node) (declared : List Layout)
    (registry : Registry ι) (device : DeviceCaps) (env : ω) (id : DescriptorId)
    (descriptor : Descriptor ι) (form : FinalizedForm) (implementation : ι) (env' : ω) :
    Prop where
  fits : blob.header.Fits node declared device
  asks : blob.header.Asks registry id descriptor
  takes : Implementation.deserialize (descriptor.instantiate node) blob.payload env =
    (.ok form, implementation, env')
  shapes_eq : form.shapes = blob.header.shapes

/-- An instance that is read back is ready in the form that the payload stands for. -/
theorem ofArtifact_eq_ok_iff :
    ofArtifact blob node declared registry device env = (.ok inst, env') ↔
      ∃ id descriptor form implementation,
        ReadsBack blob node declared registry device env id descriptor form implementation env' ∧
        inst = restored node declared id implementation form := by
  unfold ofArtifact
  constructor
  · intro h
    split at h
    · exact absurd (Prod.mk.inj h).1 error_ne_ok
    · rename_i id descriptor hdescriptor
      obtain ⟨hfits, hasks⟩ := artifactDescriptor_eq_ok_iff.1 hdescriptor
      split at h
      · exact absurd (Prod.mk.inj h).1 error_ne_ok
      · rename_i form implementation _ htakes
        split at h
        · exact absurd (Prod.mk.inj h).1 error_ne_ok
        · rename_i hform
          obtain ⟨hinst, rfl⟩ := Prod.mk.inj h
          exact ⟨id, descriptor, form, implementation, ⟨hfits, hasks, htakes,
            (ArtifactHeader.checkField_eq_ok_iff.1 hform).symm⟩, (Except.ok.inj hinst).symm⟩
  · rintro ⟨id, descriptor, form, implementation, ⟨hfits, hasks, htakes, hshapes⟩, rfl⟩
    simp only [artifactDescriptor_eq_ok_iff.2 ⟨hfits, hasks⟩, htakes, ArtifactHeader.checkForm,
      (ArtifactHeader.checkField_eq_ok_iff (u := ())).2 hshapes.symm]

/-- A blob that is not read back is incompatible with the node. -/
theorem exists_reason_of_ofArtifact {error : RuntimeError}
    (h : (ofArtifact blob node declared registry device env).1 = .error error) :
    ∃ reason, error = .incompatibleArtifact node.id reason := by
  unfold ofArtifact at h
  split at h
  · exact ⟨_, (Except.error.inj h).symm⟩
  · split at h
    · exact ⟨_, (Except.error.inj h).symm⟩
    · split at h
      · exact ⟨_, (Except.error.inj h).symm⟩
      · cases h

end PrimitiveInstance

end TensorEngine
