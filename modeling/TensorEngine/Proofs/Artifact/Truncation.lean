import TensorEngine.Proofs.Artifact.Framing
import TensorEngine.Proofs.Wire.Canonical

/-!
# What is accepted as a blob

Bytes are accepted when they start as an artifact does, have the version of the format, and a
header is read from the area in front of the payload.  The area begins with the written form of
this header, so the header fits its field again when it is written anew, whatever follows it in the
area.  What ends before the payload begins is truncated: a start of accepted bytes is never taken
for something else.
-/

namespace TensorEngine

open Wire

/-- What is read as a header is its written form. -/
theorem Wire.canonical_header : Canonical ArtifactHeader := by
  intro bytes rest header h
  obtain ⟨backend, _, hbackend, h⟩ := run_bind_eq_ok_iff.1 h
  obtain ⟨implementation, _, himplementation, h⟩ := run_bind_eq_ok_iff.1 h
  obtain ⟨version, _, hversion, h⟩ := run_bind_eq_ok_iff.1 h
  obtain ⟨fingerprint, _, hfingerprint, h⟩ := run_bind_eq_ok_iff.1 h
  obtain ⟨op, _, hop, h⟩ := run_bind_eq_ok_iff.1 h
  obtain ⟨signature, _, hsignature, h⟩ := run_bind_eq_ok_iff.1 h
  obtain ⟨shapes, _, hshapes, h⟩ := run_bind_eq_ok_iff.1 h
  obtain ⟨rfl, rfl⟩ := Prod.mk.inj (Except.ok.inj h)
  rw [canonical_enumerated (by decide) hbackend, canonical_string himplementation,
    canonical_uint32 hversion, canonical_uint64 hfingerprint,
    canonical_enumerated (by decide) hop, canonical_uint64 hsignature,
    canonical_concreteShapes hshapes]
  show _ = encode backend ++ encode implementation ++ encode version ++ encode fingerprint
    ++ encode op ++ encode signature ++ encode shapes ++ _
  simp only [List.append_assoc]

namespace ArtifactBlob

variable {header : ArtifactHeader} {payload bytes front : Bytes} {blob : ArtifactBlob}

/-! ## Words of a start -/

theorem wordAt_lt (bytes : Bytes) (offset : Nat) : wordAt bytes offset < wordRange 4 := by
  obtain ⟨hlt, _⟩ := littleEndian_ofLittleEndian ((bytes.drop offset).take 4)
  have hmono : ∀ count ≤ 4, wordRange count ≤ wordRange 4 := by decide
  exact Nat.lt_of_lt_of_le hlt (hmono _ (List.length_take_le 4 _))

theorem wordAt_of_start {offset : Nat} (h : front <+: bytes) (hlt : offset + 4 ≤ front.length) :
    wordAt front offset = wordAt bytes offset := by
  obtain ⟨tail, rfl⟩ := h
  unfold wordAt
  rw [List.drop_append_of_le_length (by omega),
    List.take_append_of_le_length (by rw [List.length_drop]; omega)]

/-- Four bytes are those of the word that is read from them. -/
theorem littleEndian_wordAt {offset : Nat} (h : offset + 4 ≤ bytes.length) :
    littleEndian 4 (wordAt bytes offset) = (bytes.drop offset).take 4 := by
  have hlength : ((bytes.drop offset).take 4).length = 4 := by
    rw [List.length_take, List.length_drop]
    omega
  obtain ⟨_, hword⟩ := littleEndian_ofLittleEndian ((bytes.drop offset).take 4)
  rwa [hlength] at hword

/-! ## Accepted bytes -/

def payloadOffset (bytes : Bytes) : Nat := preambleSize + wordAt bytes 12

def headerArea (bytes : Bytes) : Bytes := (bytes.take (payloadOffset bytes)).drop preambleSize

/-- The checks one after the other; the first that fails is answered. -/
theorem ofBytes?_eq (bytes : Bytes) :
    ofBytes? bytes =
      if bytes.take magic.length ≠ magic.take bytes.length then .error .badMagic
      else if bytes.length < preambleSize then .error (.truncated preambleSize bytes.length)
      else if wordAt bytes 8 ≠ formatVersion then
        .error (.unsupportedVersion (wordAt bytes 8) formatVersion)
      else if bytes.length < payloadOffset bytes then
        .error (.truncated (payloadOffset bytes) bytes.length)
      else (decode (headerArea bytes)).mapError .header >>= fun header ↦
        .ok ⟨header, headerArea bytes, bytes.drop (payloadOffset bytes)⟩ := by
  unfold ofBytes?
  simp only [throw_eq_error, error_bind, pure_eq_ok]
  rfl

/-- How bytes are accepted as a blob. -/
structure Accepts (bytes : Bytes) (blob : ArtifactBlob) : Prop where
  magic_eq : bytes.take magic.length = magic
  version_eq : wordAt bytes 8 = formatVersion
  offset_le : payloadOffset bytes ≤ bytes.length
  headerBytes_eq : blob.headerBytes = headerArea bytes
  reads : decode (headerArea bytes) = .ok blob.header
  payload_eq : blob.payload = bytes.drop (payloadOffset bytes)

theorem ofBytes?_eq_ok_iff : ofBytes? bytes = .ok blob ↔ Accepts bytes blob := by
  rw [ofBytes?_eq]
  constructor
  · intro h
    split at h
    · cases h
    rename_i hmagic
    split at h
    · cases h
    rename_i hpreamble
    split at h
    · cases h
    rename_i hversion
    split at h
    · cases h
    rename_i hoffset
    obtain ⟨header, hheader, h⟩ := bind_eq_ok_iff.1 h
    obtain rfl := Except.ok.inj h
    have hlong : magic.length ≤ bytes.length :=
      Nat.le_trans (by decide) (Nat.le_of_not_lt hpreamble)
    rw [not_not, List.take_of_length_le hlong] at hmagic
    exact ⟨hmagic, not_not.1 hversion, Nat.le_of_not_lt hoffset, rfl, mapError_eq_ok_iff.1 hheader,
      rfl⟩
  · rintro ⟨hmagic, hversion, hoffset, harea, hreads, hpayload⟩
    have hpreamble : preambleSize ≤ bytes.length := Nat.le_trans (Nat.le_add_right _ _) hoffset
    have hlong : magic.length ≤ bytes.length := Nat.le_trans (by decide) hpreamble
    rw [List.take_of_length_le hlong, if_neg (not_not.2 hmagic), if_neg (Nat.not_lt.2 hpreamble),
      if_neg (not_not.2 hversion), if_neg (Nat.not_lt.2 hoffset), hreads, ← harea, ← hpayload]
    rfl

namespace Accepts

/-- The bytes are those of the blob. -/
theorem bytes_eq (h : Accepts bytes blob) : blob.bytes = bytes := by
  have hoffset : preambleSize + wordAt bytes 12 ≤ bytes.length := h.offset_le
  have hpreamble : preambleSize = 16 := rfl
  have hlength : blob.headerBytes.length = wordAt bytes 12 := by
    rw [h.headerBytes_eq, headerArea, List.length_drop, List.length_take_of_le h.offset_le,
      payloadOffset]
    omega
  have hversion : littleEndian 4 formatVersion = (bytes.drop 8).take 4 := by
    rw [← h.version_eq, littleEndian_wordAt (by omega)]
  have hwidth : littleEndian 4 blob.headerBytes.length = (bytes.drop 12).take 4 := by
    rw [hlength, littleEndian_wordAt (by omega)]
  have hmagic : magic = bytes.take 8 := h.magic_eq.symm
  have hfront : bytes.take 16 = (bytes.take (payloadOffset bytes)).take 16 := by
    rw [List.take_take, Nat.min_eq_left (show 16 ≤ payloadOffset bytes from Nat.le_add_right _ _)]
  calc blob.bytes
      = bytes.take 8 ++ (bytes.drop 8).take 4 ++ (bytes.drop 12).take 4
          ++ headerArea bytes ++ blob.payload := by
        rw [ArtifactBlob.bytes, hversion, hwidth, h.headerBytes_eq, ← hmagic]
    _ = bytes.take 16 ++ headerArea bytes ++ blob.payload := by
        rw [← List.take_add, ← List.take_add]
    _ = bytes.take (payloadOffset bytes) ++ blob.payload := by
        rw [hfront, headerArea, hpreamble, List.take_append_drop]
    _ = bytes := by rw [h.payload_eq, List.take_append_drop]

/-- The area begins with the written form of the header. -/
theorem exists_trailing (h : Accepts bytes blob) :
    ∃ trailing, blob.headerBytes = encode blob.header ++ trailing := by
  rw [h.headerBytes_eq]
  exact canonical_header.exists_of_decode h.reads

/-- The header fits its field when it is written anew. -/
theorem length_encode_lt (h : Accepts bytes blob) :
    (encode blob.header).length < wordRange 4 := by
  obtain ⟨trailing, htrailing⟩ := h.exists_trailing
  have hlength : blob.headerBytes.length ≤ wordAt bytes 12 := by
    rw [h.headerBytes_eq, headerArea, List.length_drop, List.length_take, payloadOffset]
    omega
  rw [htrailing, List.length_append] at hlength
  exact Nat.lt_of_le_of_lt (Nat.le_trans (Nat.le_add_right _ _) hlength) (wordAt_lt bytes 12)

/-- What ends before the payload begins is truncated. -/
theorem truncated_of_start (h : Accepts bytes blob) (hfront : front <+: bytes)
    (hlt : front.length < payloadOffset bytes) :
    ofBytes? front = .error (.truncated
      (if front.length < preambleSize then preambleSize else payloadOffset bytes)
      front.length) := by
  have hmagic : front.take magic.length = magic.take front.length := by
    calc front.take magic.length
        = (bytes.take front.length).take magic.length :=
          congrArg (List.take _) (List.prefix_iff_eq_take.1 hfront)
      _ = (bytes.take magic.length).take front.length := by
          rw [List.take_take, List.take_take, Nat.min_comm]
      _ = magic.take front.length := by rw [h.magic_eq]
  rw [ofBytes?_eq, if_neg (not_not.2 hmagic)]
  by_cases hshort : front.length < preambleSize
  · rw [if_pos hshort, if_pos hshort]
  · have hpreamble : preambleSize = 16 := rfl
    have hoffset : payloadOffset front = payloadOffset bytes := by
      unfold payloadOffset
      rw [wordAt_of_start hfront (by omega)]
    rw [if_neg hshort, if_neg hshort, wordAt_of_start hfront (by omega),
      if_neg (not_not.2 h.version_eq), hoffset, if_pos hlt]

end Accepts

/-- The preamble of a written blob states where its payload begins. -/
theorem payloadOffset_bytes (payload : Bytes) (h : (encode header).length < wordRange 4) :
    payloadOffset (ofParts header payload).bytes = preambleSize + (encode header).length := by
  have hbytes : (ofParts header payload).bytes = (magic ++ littleEndian 4 formatVersion)
      ++ (littleEndian 4 (encode header).length ++ (encode header ++ payload)) := by
    simp only [ArtifactBlob.bytes, ofParts, List.append_assoc]
  unfold payloadOffset
  rw [hbytes]
  exact congrArg (preambleSize + ·) (wordAt_append h)

/-- A header and a payload come back from the bytes of their blob, every start of these bytes that
ends before the payload is truncated, and accepted bytes are those of a blob whose parts come back
as well when they are written anew. -/
theorem framing (header : ArtifactHeader) (payload bytes : Bytes) (blob : ArtifactBlob) :
    ((encode header).length < wordRange 4 →
      ofBytes? (ofParts header payload).bytes = .ok (ofParts header payload) ∧
      ∀ front, front <+: (ofParts header payload).bytes →
        front.length < preambleSize + (encode header).length →
        ofBytes? front = .error (.truncated
          (if front.length < preambleSize then preambleSize
            else preambleSize + (encode header).length)
          front.length)) ∧
    (ofBytes? bytes = .ok blob →
      blob.bytes = bytes ∧
      blob.payload = bytes.drop (preambleSize + wordAt bytes 12) ∧
      (∃ trailing, blob.headerBytes = encode blob.header ++ trailing) ∧
      ofBytes? (ofParts blob.header blob.payload).bytes =
        .ok (ofParts blob.header blob.payload)) := by
  refine ⟨fun h ↦ ?_, fun h ↦ ?_⟩
  · have hback := ofBytes?_bytes payload h
    refine ⟨hback, fun front hfront hlt ↦ ?_⟩
    rw [← payloadOffset_bytes payload h] at hlt ⊢
    exact (ofBytes?_eq_ok_iff.1 hback).truncated_of_start hfront hlt
  · have haccepts := ofBytes?_eq_ok_iff.1 h
    exact ⟨haccepts.bytes_eq, haccepts.payload_eq, haccepts.exists_trailing,
      ofBytes?_bytes _ haccepts.length_encode_lt⟩

/-- The header of a negation of two elements. -/
def negationHeader : ArtifactHeader :=
  { backend := .reference
    implementation := "ref_cpu.neg"
    version := 1
    deviceFingerprint := 7
    op := .elementwiseUnary
    nodeSignature := 9
    shapes := ⟨[[2]], [[2]]⟩ }

/-- A blob whose header is followed by a byte that nothing reads. -/
def paddedNegation : ArtifactBlob := ⟨negationHeader, encode negationHeader ++ [0], [1, 2]⟩

theorem framing_paddedNegation :
    ofBytes? (paddedNegation.bytes.take 20) = .error (.truncated 112 20) ∧
      ofBytes? ((ofParts negationHeader [1, 2]).bytes.take 20) = .error (.truncated 111 20) ∧
      ofBytes? ((ofParts negationHeader [1, 2]).bytes.take 9) = .error (.truncated 16 9) ∧
      ofBytes? (ofParts paddedNegation.header paddedNegation.payload).bytes =
        .ok (ofParts negationHeader [1, 2]) := by
  obtain ⟨hwritten, hread⟩ :=
    framing negationHeader [1, 2] paddedNegation.bytes paddedNegation
  obtain ⟨_, htruncated⟩ := hwritten (by decide)
  obtain ⟨_, _, _, hback⟩ := hread (by decide)
  refine ⟨by decide, ?_, ?_, hback⟩
  · exact htruncated _ (List.take_prefix 20 _) (by decide)
  · exact htruncated _ (List.take_prefix 9 _) (by decide)

end ArtifactBlob

end TensorEngine
