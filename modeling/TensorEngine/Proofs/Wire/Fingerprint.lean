import TensorEngine.Catalogue.Limited
import TensorEngine.Device
import TensorEngine.Proofs.Wire.Separation

/-!
# Fingerprints describe what they are made of

The bytes that are hashed for a node, for a device and for a finalized form are frames of written
values, one after the other.  They determine these values, so fingerprints of different ones are
equal only when the hash takes two different strings of bytes to the same word.
-/

namespace TensorEngine

open Wire Fingerprint

/-! ## Frames -/

namespace Fingerprint

variable {α : Type} [Encode α] {a b : α} {text text' : String} {rest rest' : Bytes}

theorem frameText_append_inj (h : Storable text) (h' : Storable text')
    (heq : frameText text ++ rest = frameText text' ++ rest') : text = text' ∧ rest = rest' :=
  separates_string.split h h' heq

/-- Behind a frame that is told apart, the same bytes follow. -/
theorem frameOf_append_inj (hα : Separates α) (ha : Storable a) (hb : Storable b)
    (heq : frameOf a ++ rest = frameOf b ++ rest') : a = b ∧ rest = rest' := by
  replace heq : encodeLength (encode a).length ++ (encode a ++ rest) =
      encodeLength (encode b).length ++ (encode b ++ rest') := by
    rw [← List.append_assoc, ← List.append_assoc]
    exact heq
  exact hα.split ha hb (littleEndian_append_inj ha hb heq).2

theorem frameOf_inj (hα : Separates α) (ha : Storable a) (hb : Storable b)
    (heq : frameOf a = frameOf b) : a = b :=
  (frameOf_append_inj hα ha hb (congrArg (· ++ []) heq)).1

/-- Two different strings of bytes with the same hash. -/
def Collides (left right : Bytes) : Prop := left ≠ right ∧ ofBytes left = ofBytes right

/-- Equal hashes are those of equal bytes, or collide. -/
theorem eq_or_collides {left right : Bytes} (h : ofBytes left = ofBytes right) :
    left = right ∨ Collides left right := by
  by_cases heq : left = right
  · exact .inl heq
  · exact .inr ⟨heq, h⟩

end Fingerprint

/-! ## Nodes -/

/-- What a signature covers can be written down. -/
structure Node.Writable (node : Node) (inputs : List Layout) : Prop where
  op : Storable node.op
  inputs : Storable inputs
  outputs : Storable node.outputs

theorem OperationKind.storable_label (kind : OperationKind) : Storable kind.label := by
  unfold Storable
  rw [length_encode_string]
  cases kind <;> decide

/-- The signed bytes of nodes determine what they cover. -/
theorem Node.eq_of_signatureBytes {node node' : Node} {inputs inputs' : List Layout}
    (h : node.Writable inputs) (h' : node'.Writable inputs')
    (heq : node.signatureBytes inputs = node'.signatureBytes inputs') :
    node.op = node'.op ∧ inputs = inputs' ∧ node.outputs = node'.outputs := by
  unfold signatureBytes at heq
  simp only [List.append_assoc] at heq
  have hops := (frameText_append_inj node.kind.storable_label node'.kind.storable_label heq).2
  obtain ⟨hop, hlayouts⟩ := frameOf_append_inj separates_opSpec h.op h'.op hops
  have hlist : Separates (List Layout) := separates_list separates_layout
  obtain ⟨hinputs, houtputs⟩ := frameOf_append_inj hlist h.inputs h'.inputs hlayouts
  exact ⟨hop, hinputs, frameOf_inj hlist h.outputs h'.outputs houtputs⟩

/-! ## Devices -/

theorem separates_device : Separates DeviceCaps := by
  have hbackends : Separates (List BackendKind) :=
    separates_list (separates_enumerated (fun kind ↦ by cases kind <;> decide) (by decide))
  refine (separates_pair (separates_pair (separates_pair separates_string hbackends)
    separates_uint64) (separates_list separates_string)).comap
    (f := fun device ↦
      (((device.name, device.backends), device.computeUnits), device.features))
    (fun a b h ↦ ?_) fun _ ↦ rfl
  cases a
  cases b
  cases h
  rfl

/-! ## Finalized forms -/

theorem separates_concreteShapes : Separates ConcreteShapes := by
  have hdims : Separates (List Dims) := separates_list separates_dims
  refine (separates_pair hdims hdims).comap (f := fun shapes ↦ (shapes.inputs, shapes.outputs))
    (fun a b h ↦ ?_) fun _ ↦ rfl
  cases a
  cases b
  cases h
  rfl

/-- The bytes behind a form with parameters of a type determine its kernel, its extents and the
parameters. -/
def FinalizedForm.Described (α : Type) [Encode α] : Prop :=
  ∀ (kernel kernel' : String) (shapes shapes' : ConcreteShapes) (params params' : α),
    Storable kernel → Storable kernel' → Storable shapes → Storable shapes' →
    fingerprintBytes kernel shapes (encode params) =
      fingerprintBytes kernel' shapes' (encode params') →
    kernel = kernel' ∧ shapes = shapes' ∧ params = params'

/-- The parameters come last, so it is enough that they are written differently. -/
theorem FinalizedForm.described_of_injective {α : Type} [Encode α]
    (h : Function.Injective (encode : α → Bytes)) : Described α := by
  intro kernel kernel' shapes shapes' params params' hkernel hkernel' hshapes hshapes' heq
  unfold fingerprintBytes at heq
  simp only [List.append_assoc] at heq
  obtain ⟨rfl, htail⟩ := frameText_append_inj hkernel hkernel' heq
  obtain ⟨rfl, hparams⟩ := frameOf_append_inj separates_concreteShapes hshapes hshapes' htail
  refine ⟨rfl, rfl, h ?_⟩
  exact (List.append_inj hparams (by simp only [encodeLength, length_littleEndian])).2

theorem encode_injective_of_recovers {α : Type} [Encode α] [Decode α]
    (h : ∀ value : α, Recovers value) : Function.Injective (encode : α → Bytes) :=
  fun a b heq ↦ (h a).inj (h b) (congrArg (· ++ []) heq)

theorem encode_option_injective {α : Type} [Encode α]
    (h : Function.Injective (encode : α → Bytes)) :
    Function.Injective (encode : Option α → Bytes)
  | none, none, _ => rfl
  | some _, some _, heq => congrArg some (h (List.cons.inj heq).2)

/-! ## What fingerprints tell -/

/-- The bytes behind fingerprints determine what they describe: for a node the operation, whose
floating-point constants are compared by their bits, and the declared layouts, for a device the
whole description, and for a form of a family of implementations the kernel, the extents and the
parameters.  So nodes or devices that differ have equal fingerprints only when two strings of bytes
collide. -/
theorem Fingerprint.describes :
    (∀ (node node' : Node) (inputs inputs' : List Layout),
      node.Writable inputs → node'.Writable inputs' →
      (node.signatureBytes inputs = node'.signatureBytes inputs' →
        node.op = node'.op ∧ inputs = inputs' ∧ node.outputs = node'.outputs) ∧
      (node.signature inputs = node'.signature inputs' →
        (node.op = node'.op ∧ inputs = inputs' ∧ node.outputs = node'.outputs) ∨
          Collides (node.signatureBytes inputs) (node'.signatureBytes inputs'))) ∧
    (∀ device device' : DeviceCaps, Storable device → Storable device' →
      (frameOf device = frameOf device' → device = device') ∧
      (device.fingerprint = device'.fingerprint →
        device = device' ∨ Collides (frameOf device) (frameOf device'))) ∧
    FinalizedForm.Described RefKernel ∧ FinalizedForm.Described KernelPlan ∧
    FinalizedForm.Described GemmPlan ∧ FinalizedForm.Described (Option BinaryOp) := by
  refine ⟨fun node node' inputs inputs' h h' ↦ ?_, fun device device' h h' ↦ ?_, ?_, ?_, ?_, ?_⟩
  · exact ⟨Node.eq_of_signatureBytes h h',
      fun heq ↦ (eq_or_collides heq).imp_left (Node.eq_of_signatureBytes h h')⟩
  · have hdevice := frameOf_inj separates_device h h'
    exact ⟨hdevice, fun heq ↦ (eq_or_collides heq).imp_left hdevice⟩
  · exact FinalizedForm.described_of_injective (encode_injective_of_recovers recovers_refKernel)
  · exact FinalizedForm.described_of_injective (encode_injective_of_recovers recovers_kernelPlan)
  · exact FinalizedForm.described_of_injective (encode_injective_of_recovers recovers_gemmPlan)
  · exact FinalizedForm.described_of_injective
      (encode_option_injective (encode_injective_of_recovers recovers_binaryOp))

/-- A constant that is no number, under some name. -/
def quietConstant (id : NodeId) : Node :=
  ⟨id, .constant ⟨[1], .f32 #[⟨0x7fc00001⟩]⟩, [], [.ofDims .f32 [1]]⟩

theorem Fingerprint.describes_quietConstant :
    (quietConstant ⟨1⟩).Writable [] ∧ (quietConstant ⟨2⟩).Writable [] ∧
      (quietConstant ⟨1⟩).signatureBytes [] = (quietConstant ⟨2⟩).signatureBytes [] ∧
      (quietConstant ⟨1⟩).op = (quietConstant ⟨2⟩).op ∧ ([] : List Layout) = [] ∧
      (quietConstant ⟨1⟩).outputs = (quietConstant ⟨2⟩).outputs := by
  have hop : Storable (quietConstant ⟨1⟩).op := by unfold Storable; decide
  have houtputs : Storable (quietConstant ⟨1⟩).outputs := by unfold Storable; decide
  have hwritable : ∀ id, (quietConstant id).Writable [] := fun id ↦
    ⟨hop, by unfold Storable; decide, houtputs⟩
  exact ⟨hwritable _, hwritable _, rfl,
    (describes.1 _ _ [] [] (hwritable ⟨1⟩) (hwritable ⟨2⟩)).1 rfl⟩

end TensorEngine
