import Mathlib.Data.Nat.Notation
import TensorEngine.Wire.Utf8

/-!
# Text is read back

The bytes of a character are taken off the front as this character: each length has a range of
first bytes of its own, and neither overlong forms nor surrogates are characters.  So the bytes of
a text are read back as the text.
-/

namespace TensorEngine.Utf8

variable {bits index : Nat} {first second third fourth : UInt8} {rest : Bytes}

/-! ## Characters of one to four bytes -/

theorem isContinuation_of_toNat (h : second.toNat = bits % 64 + 0x80) :
    isContinuation second = true := by
  simp only [isContinuation, Bool.and_eq_true, decide_eq_true_eq, UInt8.le_iff_toNat_le, h,
    UInt8.reduceToNat]
  omega

theorem decodeFrom_one (hbits : bits ≤ 0x7f) (hfirst : first.toNat = bits) :
    decodeFrom index (first :: rest) =
      (Char.ofNat bits :: ·) <$> decodeFrom (index + 1) rest := by
  have hrange : first < 0x80 := by
    rw [UInt8.lt_iff_toNat_lt, hfirst]
    exact Nat.lt_succ_of_le hbits
  rw [decodeFrom.eq_def]
  simp only [hrange, if_true, hfirst]
  rfl

theorem decodeFrom_two (hlow : 0x7f < bits) (hbits : bits ≤ 0x7ff)
    (hfirst : first.toNat = bits / 64 + 0xc0) (hsecond : second.toNat = bits % 64 + 0x80) :
    decodeFrom index (first :: second :: rest) =
      (Char.ofNat bits :: ·) <$> decodeFrom (index + 2) rest := by
  have hone : ¬first < 0x80 := by
    simp only [UInt8.lt_iff_toNat_lt, hfirst, UInt8.reduceToNat]
    omega
  have hrange : (0xc2 ≤ first && first ≤ 0xdf) = true := by
    simp only [Bool.and_eq_true, decide_eq_true_eq, UInt8.le_iff_toNat_le, hfirst,
      UInt8.reduceToNat]
    omega
  have hassemble : assemble (first.toNat % 32) [second] = Char.ofNat bits := by
    simp only [assemble, List.foldl_cons, List.foldl_nil, hfirst, hsecond]
    congr 1
    omega
  rw [decodeFrom.eq_def]
  simp only [hone, if_false, hrange, if_true, isContinuation_of_toNat hsecond, hassemble]
  rfl

theorem decodeFrom_three (hlow : 0x7ff < bits) (hbits : bits ≤ 0xffff)
    (hvalid : bits < 0xd800 ∨ 0xdfff < bits) (hfirst : first.toNat = bits / 4096 + 0xe0)
    (hsecond : second.toNat = bits / 64 % 64 + 0x80) (hthird : third.toNat = bits % 64 + 0x80) :
    decodeFrom index (first :: second :: third :: rest) =
      (Char.ofNat bits :: ·) <$> decodeFrom (index + 3) rest := by
  have hone : ¬first < 0x80 := by
    simp only [UInt8.lt_iff_toNat_lt, hfirst, UInt8.reduceToNat]
    omega
  have htwo : ¬(0xc2 ≤ first && first ≤ 0xdf) = true := by
    simp only [Bool.and_eq_true, decide_eq_true_eq, UInt8.le_iff_toNat_le, hfirst,
      UInt8.reduceToNat]
    omega
  have hrange : (0xe0 ≤ first && first ≤ 0xef) = true := by
    simp only [Bool.and_eq_true, decide_eq_true_eq, UInt8.le_iff_toNat_le, hfirst,
      UInt8.reduceToNat]
    omega
  have hadmits : isSecondOfThree first second = true := by
    simp only [isSecondOfThree, isContinuation, ← UInt8.toNat_inj, UInt8.le_iff_toNat_le, hfirst,
      hsecond, UInt8.reduceToNat]
    split
    · simp only [Bool.and_eq_true, decide_eq_true_eq]
      omega
    · split <;> simp only [Bool.and_eq_true, decide_eq_true_eq] <;> omega
  have hassemble : assemble (first.toNat % 16) [second, third] = Char.ofNat bits := by
    simp only [assemble, List.foldl_cons, List.foldl_nil, hfirst, hsecond, hthird]
    congr 1
    omega
  rw [decodeFrom.eq_def]
  simp only [hone, if_false, htwo, hrange, if_true, hadmits, isContinuation_of_toNat hthird,
    hassemble]
  rfl

theorem decodeFrom_four (hlow : 0xffff < bits) (hbits : bits < 0x110000)
    (hfirst : first.toNat = bits / 262144 + 0xf0)
    (hsecond : second.toNat = bits / 4096 % 64 + 0x80)
    (hthird : third.toNat = bits / 64 % 64 + 0x80) (hfourth : fourth.toNat = bits % 64 + 0x80) :
    decodeFrom index (first :: second :: third :: fourth :: rest) =
      (Char.ofNat bits :: ·) <$> decodeFrom (index + 4) rest := by
  have hone : ¬first < 0x80 := by
    simp only [UInt8.lt_iff_toNat_lt, hfirst, UInt8.reduceToNat]
    omega
  have htwo : ¬(0xc2 ≤ first && first ≤ 0xdf) = true := by
    simp only [Bool.and_eq_true, decide_eq_true_eq, UInt8.le_iff_toNat_le, hfirst,
      UInt8.reduceToNat]
    omega
  have hthree : ¬(0xe0 ≤ first && first ≤ 0xef) = true := by
    simp only [Bool.and_eq_true, decide_eq_true_eq, UInt8.le_iff_toNat_le, hfirst,
      UInt8.reduceToNat]
    omega
  have hrange : (0xf0 ≤ first && first ≤ 0xf4) = true := by
    simp only [Bool.and_eq_true, decide_eq_true_eq, UInt8.le_iff_toNat_le, hfirst,
      UInt8.reduceToNat]
    omega
  have hadmits : isSecondOfFour first second = true := by
    simp only [isSecondOfFour, isContinuation, ← UInt8.toNat_inj, UInt8.le_iff_toNat_le, hfirst,
      hsecond, UInt8.reduceToNat]
    split
    · simp only [Bool.and_eq_true, decide_eq_true_eq]
      omega
    · split <;> simp only [Bool.and_eq_true, decide_eq_true_eq] <;> omega
  have hassemble : assemble (first.toNat % 8) [second, third, fourth] = Char.ofNat bits := by
    simp only [assemble, List.foldl_cons, List.foldl_nil, hfirst, hsecond, hthird, hfourth]
    congr 1
    omega
  rw [decodeFrom.eq_def]
  simp only [hone, if_false, htwo, hthree, hrange, if_true, hadmits,
    isContinuation_of_toNat hthird, isContinuation_of_toNat hfourth, hassemble]
  rfl

/-! ## Texts -/

/-- The bytes of a character are taken off the front. -/
theorem decodeFrom_utf8EncodeChar (c : Char) (index : Nat) (rest : Bytes) :
    ∃ next, decodeFrom index (String.utf8EncodeChar c ++ rest) =
      (c :: ·) <$> decodeFrom next rest := by
  have hvalid : c.toNat < 0xd800 ∨ 0xdfff < c.toNat ∧ c.toNat < 0x110000 := c.valid
  have hbyte : ∀ {n : Nat}, n < 256 → (UInt8.ofNat n).toNat = n := fun h ↦ by
    rw [UInt8.toNat_ofNat', Nat.mod_eq_of_lt h]
  have hencode : String.utf8EncodeChar c =
      if c.toNat ≤ 0x7f then [UInt8.ofNat c.toNat]
      else if c.toNat ≤ 0x7ff then
        [UInt8.ofNat (c.toNat / 64 % 32 + 0xc0), UInt8.ofNat (c.toNat % 64 + 0x80)]
      else if c.toNat ≤ 0xffff then
        [UInt8.ofNat (c.toNat / 4096 % 16 + 0xe0), UInt8.ofNat (c.toNat / 64 % 64 + 0x80),
          UInt8.ofNat (c.toNat % 64 + 0x80)]
      else
        [UInt8.ofNat (c.toNat / 262144 % 8 + 0xf0), UInt8.ofNat (c.toNat / 4096 % 64 + 0x80),
          UInt8.ofNat (c.toNat / 64 % 64 + 0x80), UInt8.ofNat (c.toNat % 64 + 0x80)] := rfl
  have hchar : Char.ofNat c.toNat = c := Char.ofNat_toNat c
  rw [hencode, ← congrArg List.cons hchar]
  generalize c.toNat = bits at hvalid
  by_cases hone : bits ≤ 0x7f
  · rw [if_pos hone]
    exact ⟨_, decodeFrom_one hone (hbyte (by omega))⟩
  rw [if_neg hone]
  by_cases htwo : bits ≤ 0x7ff
  · rw [if_pos htwo]
    refine ⟨_, decodeFrom_two (by omega) htwo ?_ (hbyte (by omega))⟩
    rw [hbyte (by omega), Nat.mod_eq_of_lt (by omega)]
  rw [if_neg htwo]
  by_cases hthree : bits ≤ 0xffff
  · rw [if_pos hthree]
    refine ⟨_, decodeFrom_three (by omega) hthree (by omega) ?_ (hbyte (by omega))
      (hbyte (by omega))⟩
    rw [hbyte (by omega), Nat.mod_eq_of_lt (by omega)]
  · rw [if_neg hthree]
    refine ⟨_, decodeFrom_four (by omega) (by omega) ?_ (hbyte (by omega)) (hbyte (by omega))
      (hbyte (by omega))⟩
    rw [hbyte (by omega), Nat.mod_eq_of_lt (by omega)]

/-- The bytes of a text are those of its characters, one after the other. -/
theorem encode_eq_flatMap (text : String) :
    encode text = text.toList.flatMap String.utf8EncodeChar := by
  unfold encode
  rw [String.toUTF8_eq_toByteArray, ← String.utf8Encode_toList]
  simp [List.utf8Encode]

/-- The bytes of a text are read back. -/
theorem decode_encode (text : String) : decode (encode text) = .ok text := by
  have hchars : ∀ (chars : List Char) (index : Nat),
      decodeFrom index (chars.flatMap String.utf8EncodeChar) = .ok chars := by
    intro chars
    induction chars with
    | nil => exact fun _ ↦ rfl
    | cons c chars ih =>
      intro index
      obtain ⟨next, hnext⟩ :=
        decodeFrom_utf8EncodeChar c index (chars.flatMap String.utf8EncodeChar)
      rw [List.flatMap_cons, hnext, ih]
      rfl
  unfold decode
  rw [encode_eq_flatMap, hchars]
  exact congrArg Except.ok String.ofList_toList

end TensorEngine.Utf8
