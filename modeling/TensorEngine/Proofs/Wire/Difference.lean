import TensorEngine.Graph
import Mathlib.Data.UInt

/-!
# A changed byte changes the fingerprint

A step of the hash can be undone: the factor has an inverse modulo the number of words, and the
byte is mixed in by an exclusive or.  So strings of bytes that differ in a single byte have
different hashes, whatever stands in front of it and behind it.

The choices that an operation leaves open, apart from constants and targets of reshapes, are written
in one byte each, so nodes that differ in one of them have different signatures:

| choice | byte |
|---|---|
| function, kind of a reduction, target format | the lowest of the four of a position |
| axis that is kept, operand that is transposed | a truth value |
-/

namespace TensorEngine

open Wire

/-! ## Steps can be undone -/

namespace Fingerprint

/-- Multiplying by this word undoes multiplying by the factor. -/
def inverseFactor : UInt64 := 0xce965057aff6957b

theorem factor_mul_inverseFactor : factor * inverseFactor = 1 := by decide

theorem mul_factor_injective : Function.Injective (· * factor) := by
  intro left right h
  have hundone : left * factor * inverseFactor = right * factor * inverseFactor :=
    congrArg (· * inverseFactor) h
  rwa [UInt64.mul_assoc, UInt64.mul_assoc, factor_mul_inverseFactor, UInt64.mul_one,
    UInt64.mul_one] at hundone

/-- A step of one byte takes different hashes to different hashes. -/
theorem step_left_injective (byte : UInt8) : Function.Injective (step · byte) :=
  fun _ _ h ↦ (UInt64.xor_left_inj _).1 (mul_factor_injective h)

/-- Steps from one hash by different bytes lead to different hashes. -/
theorem step_right_injective (hash : UInt64) : Function.Injective (step hash) :=
  fun _ _ h ↦ UInt8.toUInt64_inj.1 ((UInt64.xor_right_inj _).1 (mul_factor_injective h))

theorem extend_injective (bytes : Bytes) : Function.Injective (extend · bytes) := by
  induction bytes with
  | nil => exact fun _ _ h ↦ h
  | cons byte bytes ih => exact fun _ _ h ↦ step_left_injective byte (ih h)

end Fingerprint

/-! ## Strings that differ in one byte -/

namespace Wire

/-- Two strings of bytes that are the same but for one byte. -/
inductive ByteApart : Bytes → Bytes → Prop
  | intro (front : Bytes) {a b : UInt8} (back : Bytes) (h : a ≠ b) :
    ByteApart (front ++ a :: back) (front ++ b :: back)

namespace ByteApart

open Fingerprint

variable {left right : Bytes}

theorem length_eq (h : ByteApart left right) : left.length = right.length := by
  obtain ⟨front, back, _⟩ := h
  rw [List.length_append, List.length_append, List.length_cons, List.length_cons]

theorem append_left (h : ByteApart left right) (bytes : Bytes) :
    ByteApart (bytes ++ left) (bytes ++ right) := by
  obtain ⟨front, back, hne⟩ := h
  rw [← List.append_assoc, ← List.append_assoc]
  exact ⟨bytes ++ front, back, hne⟩

theorem append_right (h : ByteApart left right) (bytes : Bytes) :
    ByteApart (left ++ bytes) (right ++ bytes) := by
  obtain ⟨front, back, hne⟩ := h
  rw [List.append_assoc, List.append_assoc]
  exact ⟨front, back ++ bytes, hne⟩

/-- The lengths in front of the strings are the same. -/
theorem frame (h : ByteApart left right) : ByteApart (frame left) (frame right) := by
  unfold Fingerprint.frame
  rw [h.length_eq]
  exact h.append_left _

/-- The hashes part at the changed byte, and the bytes behind it cannot bring them together. -/
theorem ofBytes_ne (h : ByteApart left right) : ofBytes left ≠ ofBytes right := by
  obtain ⟨front, back, hne⟩ := h
  unfold ofBytes
  rw [extend_append, extend_append]
  exact fun heq ↦ hne (step_right_injective _ (extend_injective back heq))

end ByteApart

theorem byteApart_bool {b b' : Bool} (h : b ≠ b') : ByteApart (encode b) (encode b') := by
  refine ⟨[], [], ?_⟩
  cases b <;> cases b' <;> first | exact absurd rfl h | decide

/-- Small numbers differ in the first of their four bytes. -/
theorem byteApart_tag {m n : Nat} (hm : m < 256) (hn : n < 256) (h : m ≠ n) :
    ByteApart (encodeTag m) (encodeTag n) := by
  have hfirst : UInt8.ofNat m ≠ UInt8.ofNat n := by
    rw [Ne, ← UInt8.toNat_inj, UInt8.toNat_ofNat_of_lt' hm, UInt8.toNat_ofNat_of_lt' hn]
    exact h
  unfold encodeTag littleEndian
  rw [Nat.div_eq_of_lt hm, Nat.div_eq_of_lt hn]
  exact ⟨[], littleEndian 3 0, hfirst⟩

theorem byteApart_enumerated {κ : Type} [DecidableEq κ] [Enumerated κ]
    (hmem : ∀ value : κ, value ∈ (Enumerated.values : List κ)) (hcount : Enumerated.count κ ≤ 256)
    {a b : κ} (h : a ≠ b) : ByteApart (encode a) (encode b) := by
  have htag : ∀ value : κ, Enumerated.tag value < 256 := fun value ↦
    Nat.lt_of_lt_of_le (List.idxOf_lt_length_of_mem (hmem value)) hcount
  exact byteApart_tag (htag a) (htag b) fun heq ↦ h ((List.idxOf_inj (hmem a)).1 heq)

end Wire

/-! ## Operations that differ in one choice -/

namespace OpSpec

/-- Two operations of a family that are the same but for one choice. -/
inductive ChoiceApart : OpSpec → OpSpec → Prop
  | binary {op op' : BinaryOp} (h : op ≠ op') : ChoiceApart (.binary op) (.binary op')
  | unary {op op' : UnaryOp} (h : op ≠ op') : ChoiceApart (.unary op) (.unary op')
  | reduceKind {kind kind' : ReduceKind} (keepDims : Bool) (h : kind ≠ kind') :
    ChoiceApart (.reduce ⟨kind, keepDims⟩) (.reduce ⟨kind', keepDims⟩)
  | keepDims (kind : ReduceKind) {keep keep' : Bool} (h : keep ≠ keep') :
    ChoiceApart (.reduce ⟨kind, keep⟩) (.reduce ⟨kind, keep'⟩)
  | transposeLhs {lhs lhs' : Bool} (rhs : Bool) (h : lhs ≠ lhs') :
    ChoiceApart (.matMul ⟨lhs, rhs⟩) (.matMul ⟨lhs', rhs⟩)
  | transposeRhs (lhs : Bool) {rhs rhs' : Bool} (h : rhs ≠ rhs') :
    ChoiceApart (.matMul ⟨lhs, rhs⟩) (.matMul ⟨lhs, rhs'⟩)
  | reorder {target target' : Format} (h : target ≠ target') :
    ChoiceApart (.reorder target) (.reorder target')

namespace ChoiceApart

variable {op op' : OpSpec}

theorem kind_eq (h : op.ChoiceApart op') : op.kind = op'.kind := by
  cases h <;> rfl

/-- A choice is written in one byte. -/
theorem byteApart (h : op.ChoiceApart op') : ByteApart (encode op) (encode op') := by
  cases h with
  | binary h =>
    exact (byteApart_enumerated (by intro op; cases op <;> decide) (by decide) h).append_left _
  | unary h =>
    exact (byteApart_enumerated (by intro op; cases op <;> decide) (by decide) h).append_left _
  | reduceKind keepDims h =>
    have hkind := byteApart_enumerated (by intro kind; cases kind <;> decide) (by decide) h
    exact (hkind.append_right _).append_left _
  | keepDims kind h => exact ((byteApart_bool h).append_left _).append_left _
  | transposeLhs rhs h => exact ((byteApart_bool h).append_right _).append_left _
  | transposeRhs lhs h => exact ((byteApart_bool h).append_left _).append_left _
  | reorder h =>
    have hformat := byteApart_enumerated (by intro format; cases format <;> decide) (by decide) h
    exact hformat.append_left _

end ChoiceApart

end OpSpec

/-- What is hashed for nodes that differ in a choice differs in the byte of this choice. -/
theorem Node.byteApart_signatureBytes {node node' : Node} (inputs : List Layout)
    (hop : node.op.ChoiceApart node'.op) (houtputs : node.outputs = node'.outputs) :
    ByteApart (node.signatureBytes inputs) (node'.signatureBytes inputs) := by
  have hkind : node.kind = node'.kind := hop.kind_eq
  unfold signatureBytes
  rw [hkind, houtputs]
  exact ((hop.byteApart.frame.append_left _).append_right _).append_right _

/-- A change of one byte always changes the hash, and a change of one choice of an operation always
changes the signature of a node, whatever its layouts. -/
theorem Fingerprint.tells_single_changes :
    (∀ (front back : Bytes) (a b : UInt8), a ≠ b →
      ofBytes (front ++ [a] ++ back) ≠ ofBytes (front ++ [b] ++ back)) ∧
    (∀ (node node' : Node) (inputs : List Layout), node.op.ChoiceApart node'.op →
      node.outputs = node'.outputs → node.signature inputs ≠ node'.signature inputs) := by
  refine ⟨fun front back a b h ↦ ?_, fun node node' inputs hop houtputs ↦ ?_⟩
  · rw [List.append_assoc, List.append_assoc]
    exact (ByteApart.intro front back h).ofBytes_ne
  · exact (Node.byteApart_signatureBytes inputs hop houtputs).ofBytes_ne

def rowReduction (kind : ReduceKind) : Node :=
  ⟨⟨1⟩, .reduce ⟨kind, false⟩, [⟨0⟩], [⟨⟨[.unbounded]⟩, .f32, .rowMajor⟩]⟩

/-- Two short strings, and the sums and the largest elements of rows of up to eight elements. -/
theorem Fingerprint.tells_single_changes_rowReduction :
    ofBytes ([0xff] ++ [0x61] ++ [0x00]) ≠ ofBytes ([0xff] ++ [0x62] ++ [0x00]) ∧
      (rowReduction .sum).signature [⟨⟨[.unbounded, .range 1 8]⟩, .f32, .rowMajor⟩] ≠
        (rowReduction .max).signature [⟨⟨[.unbounded, .range 1 8]⟩, .f32, .rowMajor⟩] :=
  ⟨tells_single_changes.1 [0xff] [0x00] 0x61 0x62 (by decide),
    tells_single_changes.2 _ _ _ (.reduceKind false (by decide)) rfl⟩

end TensorEngine
