import TensorEngine.Proofs.Artifact.Framing

/-!
# Written values are told apart

The written form of a value is never the beginning of that of another value of its type, so values
that are written one after the other cannot run together: the bytes decide where the first one ends
and what it is.  Lengths are written in a word, so this is said of values whose written form has no
more bytes than a word can count.

| type | why its values are told apart |
|---|---|
| word | all words of a width have the same number of bytes |
| constructor | its tag comes first, then its fields |
| pair, record | field by field |
| text, sequence | its length comes first, then its items |
-/

namespace TensorEngine.Wire

/-- The number of the bytes of a value fits a word, as that of all bytes does that a machine
holds. -/
def Storable {α : Type} [Encode α] (value : α) : Prop := (encode value).length < wordRange 8

/-- The written forms of different values part before either of them ends: they are not in front of
the same bytes, whatever follows. -/
structure Separates (α : Type) [Encode α] : Prop where
  eq_of_append : ∀ {a b : α} {rest rest' : Bytes}, Storable a → Storable b →
    encode a ++ rest = encode b ++ rest' → a = b
  length_pos : ∀ a : α, 0 < (encode a).length

section

variable {α β : Type} [Encode α] [Encode β] {a b : α} {rest rest' : Bytes}

theorem Storable.of_length_le {b : β} (h : Storable a)
    (hle : (encode b).length ≤ (encode a).length) : Storable b :=
  Nat.lt_of_le_of_lt hle h

/-! ## Records -/

namespace Separates

/-- Values that are taken off the front are told apart. -/
theorem of_recovers [Decode α] (h : ∀ value : α, Recovers value)
    (hpos : ∀ a : α, 0 < (encode a).length) : Separates α :=
  ⟨fun _ _ heq ↦ (h _).inj (h _) heq, hpos⟩

/-- Values that are written like values that are told apart are told apart. -/
theorem comap (h : Separates β) {f : α → β} (hf : Function.Injective f)
    (hencode : ∀ a, encode a = encode (f a)) : Separates α := by
  refine ⟨fun {a b rest rest'} ha hb heq ↦ ?_, fun a ↦ (hencode a).symm ▸ h.length_pos (f a)⟩
  unfold Storable at ha hb
  rw [hencode] at ha hb
  rw [hencode a, hencode b] at heq
  exact hf (h.eq_of_append ha hb heq)

/-- Behind a value that is told apart, the same bytes follow. -/
theorem split (h : Separates α) (ha : Storable a) (hb : Storable b)
    (heq : encode a ++ rest = encode b ++ rest') : a = b ∧ rest = rest' := by
  obtain rfl := h.eq_of_append ha hb heq
  exact ⟨rfl, List.append_cancel_left heq⟩

/-- A field behind the same bytes is told apart. -/
theorem field (h : Separates α) {front : Bytes} (ha : (front ++ encode a).length < wordRange 8)
    (hb : (front ++ encode b).length < wordRange 8)
    (heq : front ++ encode a ++ rest = front ++ encode b ++ rest') : a = b := by
  rw [List.length_append] at ha hb
  rw [List.append_assoc, List.append_assoc] at heq
  exact h.eq_of_append (Nat.lt_of_le_of_lt (Nat.le_add_left _ _) ha)
    (Nat.lt_of_le_of_lt (Nat.le_add_left _ _) hb) (List.append_cancel_left heq)

end Separates

theorem separates_pair (hα : Separates α) (hβ : Separates β) : Separates (α × β) := by
  have hlength : ∀ pair : α × β,
      (encode pair).length = (encode pair.1).length + (encode pair.2).length :=
    fun _ ↦ List.length_append
  refine ⟨fun {p q rest rest'} hp hq heq ↦ ?_, fun p ↦ ?_⟩
  · replace heq : encode p.1 ++ (encode p.2 ++ rest) = encode q.1 ++ (encode q.2 ++ rest') := by
      rw [← List.append_assoc, ← List.append_assoc]
      exact heq
    obtain ⟨hfst, htail⟩ := hα.split (hp.of_length_le (by rw [hlength]; omega))
      (hq.of_length_le (by rw [hlength]; omega)) heq
    exact Prod.ext hfst (hβ.eq_of_append (hp.of_length_le (by rw [hlength]; omega))
      (hq.of_length_le (by rw [hlength]; omega)) htail)
  · have hpos := hα.length_pos p.1
    rw [hlength]
    omega

/-! ## Words and tags -/

/-- A number that fits is told apart by its bytes. -/
theorem littleEndian_append_inj {width m n : Nat} (hm : m < wordRange width)
    (hn : n < wordRange width) (h : littleEndian width m ++ rest = littleEndian width n ++ rest') :
    m = n ∧ rest = rest' := by
  obtain ⟨hword, hrest⟩ := List.append_inj h (by rw [length_littleEndian, length_littleEndian])
  rw [← ofLittleEndian_littleEndian hm, hword, ofLittleEndian_littleEndian hn]
  exact ⟨rfl, hrest⟩

theorem length_pos_of_tag (tag : Nat) (h : encodeTag tag <+: encode a) :
    0 < (encode a).length := by
  have hlength := h.length_le
  rw [encodeTag, length_littleEndian] at hlength
  omega

/-- Values in front of the same bytes begin with the same tag. -/
theorem tag_eq (tag : α → Nat) (count : Nat) (hcount : count ≤ wordRange 4)
    (hlt : ∀ a, tag a < count) (htag : ∀ a, encodeTag (tag a) <+: encode a)
    (heq : encode a ++ rest = encode b ++ rest') : tag a = tag b := by
  obtain ⟨fields, ha⟩ := htag a
  obtain ⟨fields', hb⟩ := htag b
  rw [← ha, ← hb, List.append_assoc, List.append_assoc] at heq
  exact (littleEndian_append_inj (Nat.lt_of_lt_of_le (hlt a) hcount)
    (Nat.lt_of_lt_of_le (hlt b) hcount) heq).1

variable {κ : Type} [DecidableEq κ] [Enumerated κ]

theorem separates_enumerated (hmem : ∀ value : κ, value ∈ (Enumerated.values : List κ))
    (hcount : Enumerated.count κ ≤ wordRange 4) : Separates κ :=
  .of_recovers (fun value ↦ recovers_enumerated (hmem value) hcount)
    fun _ ↦ length_pos_of_tag _ List.prefix_rfl

/-- Values that begin with a listed value begin with the same one when they are in front of the
same bytes. -/
theorem front_eq (hmem : ∀ value : κ, value ∈ (Enumerated.values : List κ))
    (hcount : Enumerated.count κ ≤ wordRange 4) {front : α → κ}
    (hfront : ∀ a, encode (front a) <+: encode a) (heq : encode a ++ rest = encode b ++ rest') :
    front a = front b :=
  (List.idxOf_inj (hmem (front a))).1
    (tag_eq (fun a ↦ Enumerated.tag (front a)) _ hcount
      (fun a ↦ List.idxOf_lt_length_of_mem (hmem (front a))) hfront heq)

/-! ## Sequences -/

theorem eq_of_encodeItems (h : Separates α) {xs ys : List α} (hxs : ∀ x ∈ xs, Storable x)
    (hys : ∀ y ∈ ys, Storable y) (hlength : xs.length = ys.length)
    (heq : encodeItems xs ++ rest = encodeItems ys ++ rest') : xs = ys := by
  induction xs generalizing ys with
  | nil => exact (List.eq_nil_of_length_eq_zero hlength.symm).symm
  | cons x xs ih =>
    obtain ⟨y, ys, rfl⟩ := List.exists_cons_of_length_eq_add_one hlength.symm
    replace heq : encode x ++ (encodeItems xs ++ rest) = encode y ++ (encodeItems ys ++ rest') := by
      rw [← List.append_assoc, ← List.append_assoc]
      exact heq
    obtain ⟨hhead, htail⟩ := h.split (hxs x List.mem_cons_self) (hys y List.mem_cons_self) heq
    rw [hhead, ih (fun x hmem ↦ hxs x (List.mem_cons_of_mem _ hmem))
      (fun y hmem ↦ hys y (List.mem_cons_of_mem _ hmem)) (Nat.succ.inj hlength) htail]

theorem separates_list (h : Separates α) : Separates (List α) := by
  have hfits : ∀ {xs : List α}, Storable xs →
      xs.length < wordRange 8 ∧ ∀ x ∈ xs, Storable x := by
    intro xs hxs
    have hlength := length_encode_list xs
    have hcount : 1 * xs.length ≤ (encodeItems xs).length :=
      mul_length_le fun x _ ↦ h.length_pos x
    refine ⟨Nat.lt_of_le_of_lt (by omega) hxs, fun x hmem ↦ hxs.of_length_le ?_⟩
    have hitem := length_encode_le hmem
    omega
  refine ⟨fun {xs ys rest rest'} hxs hys heq ↦ ?_, fun xs ↦ ?_⟩
  · obtain ⟨hcount, hitems⟩ := hfits hxs
    obtain ⟨hcount', hitems'⟩ := hfits hys
    replace heq : encodeLength xs.length ++ (encodeItems xs ++ rest) =
        encodeLength ys.length ++ (encodeItems ys ++ rest') := by
      rw [← List.append_assoc, ← List.append_assoc]
      exact heq
    obtain ⟨hlength, htail⟩ := littleEndian_append_inj hcount hcount' heq
    exact eq_of_encodeItems h hitems hitems' hlength htail
  · rw [length_encode_list]
    omega

end

/-! ## Scalars and texts -/

theorem separates_uint64 : Separates UInt64 :=
  .of_recovers recovers_uint64 fun word ↦
    (length_littleEndian 8 word.toNat).symm ▸ (by decide : 0 < 8)

theorem separates_uint32 : Separates UInt32 :=
  .of_recovers recovers_uint32 fun word ↦
    (length_littleEndian 4 word.toNat).symm ▸ (by decide : 0 < 4)

theorem separates_uint8 : Separates UInt8 :=
  ⟨fun _ _ heq ↦ (List.cons.inj heq).1, fun _ ↦ Nat.one_pos⟩

theorem separates_int32 : Separates Int32 :=
  separates_uint32.comap (f := Int32.toUInt32) (fun _ _ ↦ congrArg Int32.ofUInt32) fun _ ↦ rfl

theorem separates_f32 : Separates F32 :=
  separates_uint32.comap (f := F32.bits) (fun _ _ ↦ congrArg F32.mk) fun _ ↦ rfl

theorem length_encode_string (text : String) :
    (encode text).length = 8 + (Utf8.encode text).length := by
  show (encodeLength _ ++ Utf8.encode text).length = _
  rw [List.length_append, encodeLength, length_littleEndian]

theorem separates_string : Separates String := by
  have hrecovers : ∀ {text : String}, Storable text → Recovers text := fun {text} h ↦
    recovers_string (Nat.lt_of_le_of_lt (by rw [length_encode_string]; omega) h)
  refine ⟨fun ha hb heq ↦ (hrecovers ha).inj (hrecovers hb) heq, fun text ↦ ?_⟩
  rw [length_encode_string]
  omega

/-! ## Layouts -/

/-- The place of the constructor of an axis. -/
def dimTag : Dim → Nat
  | .fixed _ => 0
  | .range _ _ => 1
  | .unbounded => 2

theorem encodeTag_dimTag (dim : Dim) : encodeTag (dimTag dim) <+: encode dim := by
  cases dim with
  | fixed value => exact List.prefix_append _ _
  | range min max => exact ⟨encode min ++ encode max, (List.append_assoc ..).symm⟩
  | unbounded => exact List.prefix_rfl

theorem separates_dim : Separates Dim := by
  refine ⟨fun {a b rest rest'} ha hb heq ↦ ?_, fun dim ↦ length_pos_of_tag _ (encodeTag_dimTag dim)⟩
  have htag : dimTag a = dimTag b := tag_eq dimTag 3 (by decide)
    (fun dim ↦ by cases dim <;> simp [dimTag]) encodeTag_dimTag heq
  match a, b, htag with
  | .fixed value, .fixed value', _ => rw [separates_uint64.field ha hb heq]
  | .range min max, .range min' max', _ =>
    replace heq : encodeTag 1 ++ (encode (min, max) ++ rest) =
        encodeTag 1 ++ (encode (min', max') ++ rest') := by
      simpa only [encode, List.append_assoc] using heq
    have hbounds := (recovers_pair (recovers_uint64 min) (recovers_uint64 max)).inj
      (recovers_pair (recovers_uint64 min') (recovers_uint64 max')) (List.append_cancel_left heq)
    obtain ⟨rfl, rfl⟩ := Prod.mk.inj hbounds
    rfl
  | .unbounded, .unbounded, _ => rfl

theorem separates_shape : Separates Shape :=
  (separates_list separates_dim).comap (f := Shape.dims) (fun _ _ ↦ congrArg Shape.mk) fun _ ↦ rfl

theorem separates_dtype : Separates DType :=
  separates_enumerated (fun dtype ↦ by cases dtype <;> decide) (by decide)

theorem separates_format : Separates Format :=
  separates_enumerated (fun format ↦ by cases format <;> decide) (by decide)

theorem separates_layout : Separates Layout := by
  refine (separates_pair (separates_pair separates_shape separates_dtype) separates_format).comap
    (f := fun layout ↦ ((layout.shape, layout.dtype), layout.format)) (fun a b h ↦ ?_) fun _ ↦ rfl
  cases a
  cases b
  cases h
  rfl

/-! ## Tensors and operations -/

theorem separates_dims : Separates Dims := separates_list separates_uint64

theorem encode_dtype (data : TensorData) : encode data.dtype <+: encode data := by
  cases data <;> exact List.prefix_append _ _

theorem separates_tensorData : Separates TensorData := by
  refine ⟨fun {a b rest rest'} ha hb heq ↦ ?_,
    fun data ↦ length_pos_of_tag (Enumerated.tag data.dtype) (encode_dtype data)⟩
  have hdtype : a.dtype = b.dtype :=
    front_eq (fun dtype ↦ by cases dtype <;> decide) (by decide) encode_dtype heq
  match a, b, hdtype with
  | .f32 values, .f32 values', _ =>
    rw [Array.toList_inj.1 ((separates_list separates_f32).field ha hb heq)]
  | .i32 values, .i32 values', _ =>
    rw [Array.toList_inj.1 ((separates_list separates_int32).field ha hb heq)]
  | .u8 values, .u8 values', _ =>
    rw [Array.toList_inj.1 ((separates_list separates_uint8).field ha hb heq)]

theorem separates_hostTensor : Separates HostTensor := by
  refine (separates_pair separates_dims separates_tensorData).comap
    (f := fun tensor ↦ (tensor.dims, tensor.data)) (fun a b h ↦ ?_) fun _ ↦ rfl
  cases a
  cases b
  cases h
  rfl

/-- The place of the constructor of a target axis. -/
def reshapeDimTag : ReshapeDim → Nat
  | .explicit _ => 0
  | .infer => 1

theorem encodeTag_reshapeDimTag (dim : ReshapeDim) :
    encodeTag (reshapeDimTag dim) <+: encode dim := by
  cases dim with
  | explicit extent => exact List.prefix_append _ _
  | infer => exact List.prefix_rfl

theorem separates_reshapeDim : Separates ReshapeDim := by
  refine ⟨fun {a b rest rest'} ha hb heq ↦ ?_,
    fun dim ↦ length_pos_of_tag _ (encodeTag_reshapeDimTag dim)⟩
  have htag : reshapeDimTag a = reshapeDimTag b := tag_eq reshapeDimTag 2 (by decide)
    (fun dim ↦ by cases dim <;> simp [reshapeDimTag]) encodeTag_reshapeDimTag heq
  match a, b, htag with
  | .explicit extent, .explicit extent', _ => rw [separates_uint64.field ha hb heq]
  | .infer, .infer, _ => rfl

theorem separates_binaryOp : Separates BinaryOp :=
  separates_enumerated (fun op ↦ by cases op <;> decide) (by decide)

theorem separates_unaryOp : Separates UnaryOp :=
  separates_enumerated (fun op ↦ by cases op <;> decide) (by decide)

theorem separates_matMulSpec : Separates MatMulSpec :=
  .of_recovers recovers_matMulSpec fun _ ↦ Nat.two_pos

theorem separates_reduceSpec : Separates ReduceSpec :=
  .of_recovers recovers_reduceSpec fun _ ↦ Nat.succ_pos _

theorem encode_kind (op : OpSpec) : encode op.kind <+: encode op := by
  cases op with
  | parameter => exact List.prefix_rfl
  | constant | binary | unary | matMul | reduce | reshape | reorder =>
    exact List.prefix_append _ _

theorem separates_opSpec : Separates OpSpec := by
  refine ⟨fun {a b rest rest'} ha hb heq ↦ ?_,
    fun op ↦ length_pos_of_tag (Enumerated.tag op.kind) (encode_kind op)⟩
  have hkind : a.kind = b.kind :=
    front_eq (fun kind ↦ by cases kind <;> decide) (by decide) encode_kind heq
  match a, b, hkind with
  | .parameter, .parameter, _ => rfl
  | .constant tensor, .constant tensor', _ => rw [separates_hostTensor.field ha hb heq]
  | .binary op, .binary op', _ => rw [separates_binaryOp.field ha hb heq]
  | .unary op, .unary op', _ => rw [separates_unaryOp.field ha hb heq]
  | .matMul spec, .matMul spec', _ => rw [separates_matMulSpec.field ha hb heq]
  | .reduce spec, .reduce spec', _ => rw [separates_reduceSpec.field ha hb heq]
  | .reshape target, .reshape target', _ =>
    rw [(separates_list separates_reshapeDim).field ha hb heq]
  | .reorder target, .reorder target', _ => rw [separates_format.field ha hb heq]

end TensorEngine.Wire
