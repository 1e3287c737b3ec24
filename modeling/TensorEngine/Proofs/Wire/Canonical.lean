import TensorEngine.Proofs.Sequencing
import TensorEngine.Proofs.Wire.RoundTrip

/-!
# Only written values are read

No value has a second written form: when a reader succeeds, what it took off the front is the
written form of the value that it read.  This holds for words and for the tags of constructors, for
texts, whose characters have no overlong forms, and so for everything that is put together from
them.
-/

namespace TensorEngine

/-! ## Text -/

namespace Utf8

variable {bits index : Nat} {first second third fourth : UInt8} {rest bytes : Bytes}
  {chars : List Char}

/-- The bytes of the character with these bits. -/
theorem utf8EncodeChar_ofNat (h : bits < 0xd800 ∨ 0xdfff < bits ∧ bits < 0x110000) :
    String.utf8EncodeChar (Char.ofNat bits) =
      if bits ≤ 0x7f then [UInt8.ofNat bits]
      else if bits ≤ 0x7ff then
        [UInt8.ofNat (bits / 64 % 32 + 0xc0), UInt8.ofNat (bits % 64 + 0x80)]
      else if bits ≤ 0xffff then
        [UInt8.ofNat (bits / 4096 % 16 + 0xe0), UInt8.ofNat (bits / 64 % 64 + 0x80),
          UInt8.ofNat (bits % 64 + 0x80)]
      else
        [UInt8.ofNat (bits / 262144 % 8 + 0xf0), UInt8.ofNat (bits / 4096 % 64 + 0x80),
          UInt8.ofNat (bits / 64 % 64 + 0x80), UInt8.ofNat (bits % 64 + 0x80)] := by
  have hbits : (Char.ofNat bits).toNat = bits := by
    rw [Char.ofNat, dif_pos h]
    rfl
  generalize Char.ofNat bits = c at hbits
  subst hbits
  rfl

theorem ofNat_eq_of_toNat (first : UInt8) (h : first.toNat = bits) : UInt8.ofNat bits = first := by
  rw [← h, UInt8.ofNat_toNat]

theorem isContinuation_iff :
    isContinuation second = true ↔ 0x80 ≤ second.toNat ∧ second.toNat ≤ 0xbf := by
  simp only [isContinuation, Bool.and_eq_true, decide_eq_true_eq, UInt8.le_iff_toNat_le,
    UInt8.reduceToNat]

theorem isSecondOfThree_iff : isSecondOfThree first second = true ↔
    (0x80 ≤ second.toNat ∧ second.toNat ≤ 0xbf) ∧
      (first.toNat = 0xe0 → 0xa0 ≤ second.toNat) ∧
      (first.toNat = 0xed → second.toNat ≤ 0x9f) := by
  unfold isSecondOfThree
  simp only [← UInt8.toNat_inj, UInt8.reduceToNat]
  split
  · simp only [Bool.and_eq_true, decide_eq_true_eq, UInt8.le_iff_toNat_le, UInt8.reduceToNat]
    omega
  · split
    · simp only [Bool.and_eq_true, decide_eq_true_eq, UInt8.le_iff_toNat_le, UInt8.reduceToNat]
      omega
    · rw [isContinuation_iff]
      omega

theorem isSecondOfFour_iff : isSecondOfFour first second = true ↔
    (0x80 ≤ second.toNat ∧ second.toNat ≤ 0xbf) ∧
      (first.toNat = 0xf0 → 0x90 ≤ second.toNat) ∧
      (first.toNat = 0xf4 → second.toNat ≤ 0x8f) := by
  unfold isSecondOfFour
  simp only [← UInt8.toNat_inj, UInt8.reduceToNat]
  split
  · simp only [Bool.and_eq_true, decide_eq_true_eq, UInt8.le_iff_toNat_le, UInt8.reduceToNat]
    omega
  · split
    · simp only [Bool.and_eq_true, decide_eq_true_eq, UInt8.le_iff_toNat_le, UInt8.reduceToNat]
      omega
    · rw [isContinuation_iff]
      omega

theorem range_iff {low high : UInt8} : (low ≤ first && first ≤ high) = true ↔
    low.toNat ≤ first.toNat ∧ first.toNat ≤ high.toNat := by
  simp only [Bool.and_eq_true, decide_eq_true_eq, UInt8.le_iff_toNat_le]

theorem utf8EncodeChar_one (hfirst : first < 0x80) :
    String.utf8EncodeChar (Char.ofNat first.toNat) = [first] := by
  simp only [UInt8.lt_iff_toNat_lt, UInt8.reduceToNat] at hfirst
  rw [utf8EncodeChar_ofNat (by omega), if_pos (by omega), UInt8.ofNat_toNat]

theorem utf8EncodeChar_two (hfirst : (0xc2 ≤ first && first ≤ 0xdf) = true)
    (hsecond : isContinuation second = true) :
    String.utf8EncodeChar (assemble (first.toNat % 32) [second]) = [first, second] := by
  simp only [range_iff, UInt8.reduceToNat] at hfirst
  rw [isContinuation_iff] at hsecond
  simp only [assemble, List.foldl_cons, List.foldl_nil]
  rw [utf8EncodeChar_ofNat (by omega), if_neg (by omega), if_pos (by omega),
    ofNat_eq_of_toNat first (by omega), ofNat_eq_of_toNat second (by omega)]

theorem utf8EncodeChar_three (hfirst : (0xe0 ≤ first && first ≤ 0xef) = true)
    (hsecond : isSecondOfThree first second = true) (hthird : isContinuation third = true) :
    String.utf8EncodeChar (assemble (first.toNat % 16) [second, third]) =
      [first, second, third] := by
  simp only [range_iff, UInt8.reduceToNat] at hfirst
  rw [isSecondOfThree_iff] at hsecond
  rw [isContinuation_iff] at hthird
  simp only [assemble, List.foldl_cons, List.foldl_nil]
  rw [utf8EncodeChar_ofNat (by omega), if_neg (by omega), if_neg (by omega), if_pos (by omega),
    ofNat_eq_of_toNat first (by omega), ofNat_eq_of_toNat second (by omega),
    ofNat_eq_of_toNat third (by omega)]

theorem utf8EncodeChar_four (hfirst : (0xf0 ≤ first && first ≤ 0xf4) = true)
    (hsecond : isSecondOfFour first second = true) (hthird : isContinuation third = true)
    (hfourth : isContinuation fourth = true) :
    String.utf8EncodeChar (assemble (first.toNat % 8) [second, third, fourth]) =
      [first, second, third, fourth] := by
  simp only [range_iff, UInt8.reduceToNat] at hfirst
  rw [isSecondOfFour_iff] at hsecond
  rw [isContinuation_iff] at hthird hfourth
  simp only [assemble, List.foldl_cons, List.foldl_nil]
  rw [utf8EncodeChar_ofNat (by omega), if_neg (by omega), if_neg (by omega), if_neg (by omega),
    ofNat_eq_of_toNat first (by omega), ofNat_eq_of_toNat second (by omega),
    ofNat_eq_of_toNat third (by omega), ofNat_eq_of_toNat fourth (by omega)]

theorem flatMap_of_decodeFrom (h : decodeFrom index bytes = .ok chars) :
    chars.flatMap String.utf8EncodeChar = bytes := by
  fun_induction decodeFrom index bytes generalizing chars
  case case1 =>
    obtain rfl := Except.ok.inj h
    rfl
  case case2 index first rest hfirst ih =>
    obtain ⟨others, hothers, h⟩ := bind_eq_ok_iff.1 h
    obtain rfl := Except.ok.inj h
    rw [List.flatMap_cons, ih hothers, utf8EncodeChar_one hfirst]
    rfl
  case case4 index first _ hfirst second rest hsecond ih =>
    obtain ⟨others, hothers, h⟩ := bind_eq_ok_iff.1 h
    obtain rfl := Except.ok.inj h
    rw [List.flatMap_cons, ih hothers, utf8EncodeChar_two hfirst hsecond]
    rfl
  case case8 index first _ _ hfirst second hsecond third rest hthird ih =>
    obtain ⟨others, hothers, h⟩ := bind_eq_ok_iff.1 h
    obtain rfl := Except.ok.inj h
    rw [List.flatMap_cons, ih hothers, utf8EncodeChar_three hfirst hsecond hthird]
    rfl
  case case14 index first _ _ _ hfirst second hsecond third hthird fourth rest hfourth ih =>
    obtain ⟨others, hothers, h⟩ := bind_eq_ok_iff.1 h
    obtain rfl := Except.ok.inj h
    rw [List.flatMap_cons, ih hothers, utf8EncodeChar_four hfirst hsecond hthird hfourth]
    rfl
  all_goals cases h

/-- Bytes that are read as a text are its bytes. -/
theorem encode_of_decode {text : String} (h : decode bytes = .ok text) : encode text = bytes := by
  obtain ⟨chars, hchars, rfl⟩ := map_eq_ok_iff.1 h
  rw [encode_eq_flatMap, String.toList_ofList, flatMap_of_decodeFrom hchars]

end Utf8

namespace Wire

variable {α β γ : Type} {bytes rest : Bytes}

/-- What is taken off the front is the written form of what is read. -/
def Canonical (α : Type) [Encode α] [Decode α] : Prop :=
  ∀ {bytes rest : Bytes} {value : α}, (Decode.read : Reader α).run bytes = .ok (value, rest) →
    bytes = encode value ++ rest

/-- A second reader goes on where the first one stopped. -/
theorem run_bind_eq_ok_iff {reader : Reader α} {next : α → Reader β} {b : β} :
    (reader >>= next).run bytes = .ok (b, rest) ↔
      ∃ a middle, reader.run bytes = .ok (a, middle) ∧ (next a).run middle = .ok (b, rest) := by
  rw [StateT.run_bind, bind_eq_ok_iff, Prod.exists]

/-! ## Words and tags -/

/-- A number is below the range of its bytes, and they are those of the number. -/
theorem littleEndian_ofLittleEndian (bytes : Bytes) :
    ofLittleEndian bytes < wordRange bytes.length ∧
      littleEndian bytes.length (ofLittleEndian bytes) = bytes := by
  induction bytes with
  | nil => exact ⟨Nat.one_pos, rfl⟩
  | cons byte bytes ih =>
    have hbyte : byte.toNat < 256 := byte.toNat_lt
    have hlow : UInt8.ofNat (byte.toNat + 256 * ofLittleEndian bytes) = byte := by
      rw [← UInt8.toNat_inj, UInt8.toNat_ofNat']
      omega
    have hhigh : (byte.toNat + 256 * ofLittleEndian bytes) / 256 = ofLittleEndian bytes := by
      omega
    simp only [List.length_cons, wordRange, ofLittleEndian, littleEndian, hlow, hhigh, ih.2]
    exact ⟨by omega, trivial⟩

theorem readBytes_eq_ok {count : Nat} {short : Error} {front : Bytes}
    (h : (readBytes count short).run bytes = .ok (front, rest)) :
    front.length = count ∧ bytes = front ++ rest := by
  change (if count ≤ bytes.length then _ else _) = _ at h
  split at h
  · rename_i hle
    obtain ⟨rfl, rfl⟩ := Prod.mk.inj (Except.ok.inj h)
    exact ⟨List.length_take_of_le hle, (List.take_append_drop count bytes).symm⟩
  · cases h

theorem readWord_eq_ok {width n : Nat} (h : (readWord width).run bytes = .ok (n, rest)) :
    n < wordRange width ∧ bytes = littleEndian width n ++ rest := by
  unfold readWord at h
  rw [StateT.run_map] at h
  obtain ⟨⟨front, _⟩, hfront, h⟩ := map_eq_ok_iff.1 h
  obtain ⟨rfl, rfl⟩ := Prod.mk.inj h
  obtain ⟨rfl, rfl⟩ := readBytes_eq_ok hfront
  obtain ⟨hlt, heq⟩ := littleEndian_ofLittleEndian front
  exact ⟨hlt, by rw [heq]⟩

theorem canonical_uint64 : Canonical UInt64 := by
  intro bytes rest word h
  change (UInt64.ofNat <$> readWord 8).run bytes = _ at h
  rw [StateT.run_map] at h
  obtain ⟨⟨n, _⟩, hn, h⟩ := map_eq_ok_iff.1 h
  obtain ⟨rfl, rfl⟩ := Prod.mk.inj h
  obtain ⟨hlt, hbytes⟩ := readWord_eq_ok hn
  have hword : (UInt64.ofNat n).toNat = n := by
    rw [UInt64.toNat_ofNat']
    exact Nat.mod_eq_of_lt hlt
  show _ = littleEndian 8 (UInt64.ofNat n).toNat ++ _
  rw [hword, hbytes]

theorem canonical_uint32 : Canonical UInt32 := by
  intro bytes rest word h
  change (UInt32.ofNat <$> readWord 4).run bytes = _ at h
  rw [StateT.run_map] at h
  obtain ⟨⟨n, _⟩, hn, h⟩ := map_eq_ok_iff.1 h
  obtain ⟨rfl, rfl⟩ := Prod.mk.inj h
  obtain ⟨hlt, hbytes⟩ := readWord_eq_ok hn
  have hword : (UInt32.ofNat n).toNat = n := by
    rw [UInt32.toNat_ofNat']
    exact Nat.mod_eq_of_lt hlt
  show _ = littleEndian 4 (UInt32.ofNat n).toNat ++ _
  rw [hword, hbytes]

/-- No two tags stand for the same value when no value is listed twice. -/
theorem canonical_enumerated [DecidableEq α] [Enumerated α]
    (h : (Enumerated.values : List α).Nodup) : Canonical α := by
  intro bytes rest value hread
  obtain ⟨tag, middle, htag, hread⟩ := run_bind_eq_ok_iff.1 hread
  rw [(readWord_eq_ok htag).2]
  cases hvalue : (Enumerated.ofTag? tag : Option α) with
  | none =>
    rw [hvalue] at hread
    cases hread
  | some found =>
    rw [hvalue] at hread
    obtain ⟨rfl, rfl⟩ := Prod.mk.inj (Except.ok.inj hread)
    obtain ⟨hlt, rfl⟩ := List.getElem?_eq_some_iff.1 hvalue
    show _ = littleEndian 4 (Enumerated.tag _) ++ _
    rw [Enumerated.tag, h.idxOf_getElem]

/-! ## Texts and sequences -/

theorem canonical_string : Canonical String := by
  intro bytes rest text h
  obtain ⟨count, _, hcount, h⟩ := run_bind_eq_ok_iff.1 h
  obtain ⟨front, _, hfront, h⟩ := run_bind_eq_ok_iff.1 h
  obtain ⟨hlength, hrest⟩ := readBytes_eq_ok hfront
  rw [(readWord_eq_ok hcount).2, hrest, ← hlength]
  cases htext : Utf8.decode front with
  | error _ =>
    rw [htext] at h
    cases h
  | ok found =>
    rw [htext] at h
    obtain ⟨rfl, rfl⟩ := Prod.mk.inj (Except.ok.inj h)
    show _ = encodeLength (Utf8.encode found).length ++ Utf8.encode found ++ _
    rw [Utf8.encode_of_decode htext, List.append_assoc, encodeLength]

theorem readItems_eq_ok [Encode α] [Decode α] (hitem : Canonical α) {count : Nat}
    {items : List α} (h : (readItems count : Reader (List α)).run bytes = .ok (items, rest)) :
    items.length = count ∧ bytes = encodeItems items ++ rest := by
  induction count generalizing bytes items with
  | zero =>
    obtain ⟨rfl, rfl⟩ := Prod.mk.inj (Except.ok.inj h)
    exact ⟨rfl, rfl⟩
  | succ count ih =>
    obtain ⟨first, _, hfirst, h⟩ := run_bind_eq_ok_iff.1 h
    obtain ⟨others, _, hothers, h⟩ := run_bind_eq_ok_iff.1 h
    obtain ⟨rfl, rfl⟩ := Prod.mk.inj (Except.ok.inj h)
    obtain ⟨hlength, hrest⟩ := ih hothers
    refine ⟨congrArg Nat.succ hlength, ?_⟩
    rw [hitem hfirst, hrest, encodeItems, encodeItems, List.flatMap_cons, List.append_assoc]

theorem canonical_list [Encode α] [Decode α] (hitem : Canonical α) : Canonical (List α) := by
  intro bytes rest items h
  obtain ⟨count, _, hcount, h⟩ := run_bind_eq_ok_iff.1 h
  obtain ⟨hlength, hrest⟩ := readItems_eq_ok hitem h
  show _ = encodeLength items.length ++ encodeItems items ++ _
  rw [(readWord_eq_ok hcount).2, hrest, ← hlength, List.append_assoc, encodeLength]

/-- Making room takes nothing off the front. -/
theorem canonical_dims : Canonical Dims := by
  intro bytes rest dims h
  obtain ⟨count, _, hcount, h⟩ := run_bind_eq_ok_iff.1 h
  obtain ⟨_, middle, hroom, h⟩ := run_bind_eq_ok_iff.1 h
  obtain ⟨_, _, hroom⟩ := bind_eq_ok_iff.1 hroom
  obtain rfl := (Prod.mk.inj (Except.ok.inj hroom)).2
  obtain ⟨hlength, hrest⟩ := readItems_eq_ok canonical_uint64 h
  show _ = encodeLength dims.length ++ encodeItems dims ++ _
  rw [(readWord_eq_ok hcount).2, hrest, ← hlength, List.append_assoc, encodeLength]

theorem canonical_concreteShapes : Canonical ConcreteShapes := by
  intro bytes rest shapes h
  obtain ⟨inputs, _, hinputs, h⟩ := run_bind_eq_ok_iff.1 h
  obtain ⟨outputs, _, houtputs, h⟩ := run_bind_eq_ok_iff.1 h
  obtain ⟨rfl, rfl⟩ := Prod.mk.inj (Except.ok.inj h)
  rw [canonical_list canonical_dims hinputs, canonical_list canonical_dims houtputs]
  exact (List.append_assoc _ _ _).symm

/-- Bytes that are read as a value begin with its written form. -/
theorem Canonical.exists_of_decode [Encode α] [Decode α] (hα : Canonical α) {value : α}
    (h : decode bytes = .ok value) : ∃ trailing, bytes = encode value ++ trailing := by
  obtain ⟨⟨_, trailing⟩, hread, rfl⟩ := map_eq_ok_iff.1 h
  exact ⟨trailing, hα hread⟩

end Wire

end TensorEngine
