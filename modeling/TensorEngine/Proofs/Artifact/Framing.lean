import Mathlib.Tactic.Core
import TensorEngine.Artifact.Blob
import TensorEngine.Proofs.Sequencing
import TensorEngine.Proofs.Wire.RoundTrip

/-!
# Blobs are read back

The bytes of a blob that was put together from a header and a payload are read back as this blob,
as long as the number of the bytes of the header fits its field.  A header of such a length names
extents that there is room for.
-/

namespace TensorEngine

open Wire

variable {header : ArtifactHeader} {payload : Bytes} {shapes : ConcreteShapes}

/-! ## Lengths of written forms -/

namespace Wire

variable {α : Type} [Encode α] {items : List α}

theorem length_encode_le {item : α} (h : item ∈ items) :
    (encode item).length ≤ (encodeItems items).length := by
  induction items with
  | nil => cases h
  | cons first rest ih =>
    rw [encodeItems, List.flatMap_cons, List.length_append]
    rcases List.mem_cons.1 h with rfl | h
    · exact Nat.le_add_right _ _
    · exact Nat.le_trans (ih h) (Nat.le_add_left _ _)

theorem mul_length_le {width : Nat} (h : ∀ item ∈ items, width ≤ (encode item).length) :
    width * items.length ≤ (encodeItems items).length := by
  induction items with
  | nil => exact Nat.le_refl 0
  | cons first rest ih =>
    rw [encodeItems, List.flatMap_cons, List.length_append, List.length_cons, Nat.mul_succ,
      Nat.add_comm]
    exact Nat.add_le_add (h first List.mem_cons_self)
      (ih fun item hmem ↦ h item (List.mem_cons_of_mem _ hmem))

theorem length_encode_list (items : List α) :
    (encode items).length = 8 + (encodeItems items).length := by
  show (encodeLength items.length ++ encodeItems items).length = _
  rw [List.length_append, encodeLength, length_littleEndian]

/-- Each extent takes a word. -/
theorem length_encode_dims (dims : Dims) : 8 + 8 * dims.length ≤ (encode dims).length := by
  rw [length_encode_list]
  exact Nat.add_le_add_left (mul_length_le fun extent _ ↦
    Nat.le_of_eq (length_littleEndian 8 extent.toNat).symm) 8

end Wire

/-! ## Room -/

open private Nat.nextPowerOfTwo.go from Init.Data.Nat.Power2.Basic

/-- The next power of two is reached by doubling numbers that are smaller. -/
theorem nextPowerOfTwo_le {count : Nat} (h : 0 < count) : count.nextPowerOfTwo ≤ 2 * count := by
  have hgo : ∀ (power : Nat) (hpower : 0 < power), power ≤ 2 * count →
      Nat.nextPowerOfTwo.go count power hpower ≤ 2 * count := by
    intro power hpower hle
    fun_induction Nat.nextPowerOfTwo.go count power hpower with
    | case1 power hpower hlt ih => exact ih (by omega)
    | case2 => exact hle
  exact hgo 1 (by decide) (by omega)

/-- There is room for extents whose words do not take more than half a block. -/
theorem reserveExtents_of_le {count : Nat} (h : 16 * count ≤ Size.hostBlock) :
    reserveExtents Size.hostBlock count = .ok () := by
  unfold reserveExtents
  by_cases hfew : count ≤ inPlaceExtents
  · rw [if_pos hfew]
  · have hpower : count.nextPowerOfTwo ≤ 2 * count := nextPowerOfTwo_le (by omega)
    have hmax : ¬maxExtents < count := by
      unfold maxExtents
      unfold Size.hostBlock at h
      omega
    have hblock : ¬Size.hostBlock < extentBlock count := by
      unfold extentBlock
      omega
    rw [if_neg hfew, if_neg hmax, if_neg hblock]

/-- There is room for extents with a written form of less than four gigabytes. -/
theorem ConcreteShapes.roomy_of_length_lt (h : (encode shapes).length < wordRange 4) :
    shapes.Roomy := by
  have hrange : wordRange 4 = 0x100000000 := rfl
  have hword : wordRange 4 ≤ wordRange 8 := by decide
  have hsplit : (encode shapes).length =
      (encode shapes.inputs).length + (encode shapes.outputs).length := List.length_append
  have hinputs := length_encode_list shapes.inputs
  have houtputs := length_encode_list shapes.outputs
  have hwidth : ∀ all : List Dims, 1 * all.length ≤ (encodeItems all).length := fun all ↦
    mul_length_le fun dims _ ↦ Nat.le_trans (by omega) (length_encode_dims dims)
  have hlength : ∀ all : List Dims, ∀ dims ∈ all, 8 * dims.length ≤ (encodeItems all).length :=
    fun all dims hmem ↦ Nat.le_trans (Nat.le_add_left _ 8)
      (Nat.le_trans (length_encode_dims dims) (length_encode_le hmem))
  refine ⟨?_, ?_, fun dims hmem ↦ reserveExtents_of_le ?_⟩
  · have hwidth := hwidth shapes.inputs
    omega
  · have hwidth := hwidth shapes.outputs
    omega
  · unfold Size.hostBlock
    rcases List.mem_append.1 hmem with hmem | hmem
    · have hlength := hlength _ _ hmem
      omega
    · have hlength := hlength _ _ hmem
      omega

/-! ## Headers and blobs -/

theorem recovers_header (hname : (Utf8.encode header.implementation).length < wordRange 8)
    (hshapes : header.shapes.Roomy) : Recovers header := by
  intro rest
  have hbackend : Recovers header.backend :=
    recovers_enumerated (by cases header.backend <;> decide) (by decide)
  have hop : Recovers header.op :=
    recovers_enumerated (by cases header.op <;> decide) (by decide)
  show StateT.run _ (encode header.backend ++ encode header.implementation
    ++ encode header.version ++ encode header.deviceFingerprint ++ encode header.op
    ++ encode header.nodeSignature ++ encode header.shapes ++ rest) = _
  simp only [List.append_assoc]
  exact (run_bind_of_ok (hbackend _)).trans
    ((run_bind_of_ok (recovers_string hname _)).trans
      ((run_bind_of_ok (recovers_uint32 header.version _)).trans
        ((run_bind_of_ok (recovers_uint64 header.deviceFingerprint _)).trans
          ((run_bind_of_ok (hop _)).trans
            ((run_bind_of_ok (recovers_uint64 header.nodeSignature _)).trans
              (run_bind_of_ok (recovers_concreteShapes hshapes rest)))))))

/-- The parts of a header are no longer than the header. -/
theorem ArtifactHeader.length_encode (header : ArtifactHeader) :
    (Utf8.encode header.implementation).length + (encode header.shapes).length ≤
      (encode header).length := by
  have hname : (encode header.implementation).length =
      8 + (Utf8.encode header.implementation).length := by
    show (encodeLength _ ++ Utf8.encode header.implementation).length = _
    rw [List.length_append, encodeLength, length_littleEndian]
  show _ ≤ (encode header.backend ++ encode header.implementation
    ++ encode header.version ++ encode header.deviceFingerprint ++ encode header.op
    ++ encode header.nodeSignature ++ encode header.shapes).length
  simp only [List.length_append, hname]
  omega

namespace ArtifactBlob

/-- There is room for the extents that a header of admissible length names. -/
theorem roomy_of_headerBytes (h : (encode header).length < wordRange 4) : header.shapes.Roomy :=
  ConcreteShapes.roomy_of_length_lt
    (Nat.lt_of_le_of_lt (Nat.le_trans (Nat.le_add_left _ _) header.length_encode) h)

theorem wordAt_append {front rest : Bytes} {n : Nat} (h : n < wordRange 4) :
    wordAt (front ++ (littleEndian 4 n ++ rest)) front.length = n := by
  unfold wordAt
  rw [List.drop_left' rfl, List.take_left' (length_littleEndian 4 n), ofLittleEndian_littleEndian h]

/-- A blob is read back from its bytes. -/
theorem ofBytes?_bytes (payload : Bytes) (h : (encode header).length < wordRange 4) :
    ofBytes? (ofParts header payload).bytes = .ok (ofParts header payload) := by
  have hheader : Recovers header := by
    refine recovers_header (Nat.lt_of_le_of_lt ?_ (Nat.lt_trans h (by decide)))
      (roomy_of_headerBytes h)
    exact Nat.le_trans (Nat.le_add_right _ _) header.length_encode
  have hbytes : (ofParts header payload).bytes = magic ++ (littleEndian 4 formatVersion
      ++ (littleEndian 4 (encode header).length ++ (encode header ++ payload))) := by
    simp only [ArtifactBlob.bytes, ofParts, List.append_assoc]
  generalize (ofParts header payload).bytes = bytes at hbytes
  have hversion : bytes = (magic ++ littleEndian 4 formatVersion)
      ++ (littleEndian 4 (encode header).length ++ (encode header ++ payload)) := by
    rw [hbytes, List.append_assoc]
  have hpreamble : bytes = (magic ++ littleEndian 4 formatVersion
      ++ littleEndian 4 (encode header).length) ++ (encode header ++ payload) := by
    rw [hversion, List.append_assoc, List.append_assoc, List.append_assoc]
  generalize hfront : magic ++ littleEndian 4 formatVersion
    ++ littleEndian 4 (encode header).length = front at hpreamble
  have hsize : front.length = 16 := by
    rw [← hfront, List.length_append, length_littleEndian]
    rfl
  have hlength : bytes.length = 16 + ((encode header).length + payload.length) := by
    rw [hpreamble, List.length_append, List.length_append, hsize]
  have hstart : bytes.take magic.length = magic.take bytes.length := by
    have hlong : magic.length ≤ bytes.length := by
      have hmagic : magic.length = 8 := rfl
      omega
    rw [List.take_of_length_le hlong, hbytes, List.take_left' rfl]
  have hfound : wordAt bytes 8 = formatVersion := by
    rw [hbytes]
    exact wordAt_append (by decide)
  have hoffset : wordAt bytes 12 = (encode header).length := by
    rw [hversion]
    exact wordAt_append h
  rw [← List.append_assoc] at hpreamble
  have hend : (front ++ encode header).length = 16 + (encode header).length := by
    rw [List.length_append, hsize]
  have hheaderBytes : (bytes.take (16 + (encode header).length)).drop 16 = encode header := by
    rw [hpreamble, List.take_left' hend, List.drop_left' hsize]
  have hpayload : bytes.drop (16 + (encode header).length) = payload := by
    rw [hpreamble, List.drop_left' hend]
  unfold ofBytes?
  simp only [hstart, hfound, hoffset, hheaderBytes, hpayload, preambleSize, ne_eq,
    not_true_eq_false, if_false, hheader.decode_encode]
  rw [if_neg (by omega), if_neg (by omega)]
  rfl

end ArtifactBlob

end TensorEngine
