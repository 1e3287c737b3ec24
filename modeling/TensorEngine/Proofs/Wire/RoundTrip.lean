import TensorEngine.Catalogue.Gemm
import TensorEngine.Catalogue.Parallel
import TensorEngine.Catalogue.Reference
import TensorEngine.Proofs.Wire.Text

/-!
# Written values are read back

A reader takes a written value off the front of the bytes, whatever follows it.  This holds for
words, for the tags of constructors, and for everything that is put together from them; so a plan
in front of a payload is read back as it was written.  Texts and sequences are read back when their
lengths fit a word, and extents when there is room for them.
-/

namespace TensorEngine

/-- The lists of extents fit a word in number, and there is room for each of them. -/
structure ConcreteShapes.Roomy (shapes : ConcreteShapes) : Prop where
  inputs_lt : shapes.inputs.length < Wire.wordRange 8
  outputs_lt : shapes.outputs.length < Wire.wordRange 8
  room : ∀ dims ∈ shapes.all, reserveExtents Size.hostBlock dims.length = .ok ()

namespace Wire

/-- Reading takes the written value off the front. -/
def Recovers {α : Type} [Encode α] [Decode α] (value : α) : Prop :=
  ∀ rest : Bytes, (Decode.read : Reader α).run (encode value ++ rest) = .ok (value, rest)

/-- Values that are taken off the front have different written forms, whatever follows them. -/
theorem Recovers.inj {α : Type} [Encode α] [Decode α] {a b : α} {rest rest' : Bytes}
    (ha : Recovers a) (hb : Recovers b) (h : encode a ++ rest = encode b ++ rest') : a = b := by
  have hread := ha rest
  rw [h, hb rest'] at hread
  exact (Prod.mk.inj (Except.ok.inj hread)).1.symm

/-- A value that is taken off the front is read. -/
theorem Recovers.decode_encode {α : Type} [Encode α] [Decode α] {value : α} (h : Recovers value) :
    (decode (encode value) : Except Error α) = .ok value := by
  have hread := h []
  rw [List.append_nil] at hread
  unfold decode
  rw [hread]
  rfl

/-- A value that was read is what the next reader depends on. -/
theorem run_bind_of_ok {α β : Type} {reader : Reader α} {next : α → Reader β} {value : α}
    {bytes rest : Bytes} (h : reader.run bytes = .ok (value, rest)) :
    (reader >>= next).run bytes = (next value).run rest := by
  rw [StateT.run_bind, h]
  rfl

/-! ## Words and tags -/

theorem run_readWord {width n : Nat} (h : n < wordRange width) (rest : Bytes) :
    (readWord width).run (littleEndian width n ++ rest) = .ok (n, rest) := by
  have hbytes : (readBytes width .truncated).run (littleEndian width n ++ rest) =
      .ok (littleEndian width n, rest) := by
    show (if width ≤ (littleEndian width n ++ rest).length then _ else _) = _
    rw [if_pos (by simp), List.take_left' (length_littleEndian width n),
      List.drop_left' (length_littleEndian width n)]
  rw [readWord, StateT.run_map, hbytes]
  exact congrArg (fun n ↦ Except.ok (n, rest)) (ofLittleEndian_littleEndian h)

theorem recovers_uint64 (word : UInt64) : Recovers word := by
  intro rest
  show (UInt64.ofNat <$> readWord 8).run (littleEndian 8 word.toNat ++ rest) = _
  rw [StateT.run_map, run_readWord word.toNat_lt]
  exact congrArg (fun word ↦ Except.ok (word, rest)) UInt64.ofNat_toNat

theorem recovers_uint32 (word : UInt32) : Recovers word := by
  intro rest
  show (UInt32.ofNat <$> readWord 4).run (littleEndian 4 word.toNat ++ rest) = _
  rw [StateT.run_map, run_readWord word.toNat_lt]
  exact congrArg (fun word ↦ Except.ok (word, rest)) UInt32.ofNat_toNat

theorem recovers_bool (b : Bool) : Recovers b := by
  cases b <;> exact fun _ ↦ rfl

theorem run_readTag {tag : Nat} (h : tag < wordRange 4) (rest : Bytes) :
    readTag.run (encodeTag tag ++ rest) = .ok (tag, rest) := run_readWord h rest

/-- A listed value is recovered from its tag. -/
theorem recovers_enumerated {α : Type} [DecidableEq α] [Enumerated α] {value : α}
    (hmem : value ∈ (Enumerated.values : List α))
    (hcount : Enumerated.count α ≤ wordRange 4) : Recovers value := by
  intro rest
  have hlt : Enumerated.tag value < Enumerated.count α := List.idxOf_lt_length_of_mem hmem
  have hvalue : Enumerated.ofTag? (Enumerated.tag value) = some value := by
    unfold Enumerated.ofTag? Enumerated.tag
    rw [List.getElem?_eq_getElem (List.idxOf_lt_length_of_mem hmem), List.getElem_idxOf]
  refine (run_bind_of_ok (run_readTag (Nat.lt_of_lt_of_le hlt hcount) rest)).trans ?_
  rw [hvalue]
  rfl

section

variable {α β γ : Type} [Encode α] [Decode α] [Encode β] [Decode β] {a : α} {b : β}

/-- A constructor is read after its tag, from what it was made of. -/
theorem run_tagged {tag : Nat} {next : Nat → Reader γ} {f : α → γ} (htag : tag < wordRange 4)
    (hnext : next tag = (do return f (← Decode.read))) (h : Recovers a) (rest : Bytes) :
    (readTag >>= next).run (encodeTag tag ++ encode a ++ rest) = .ok (f a, rest) := by
  rw [List.append_assoc]
  refine (run_bind_of_ok (run_readTag htag _)).trans ?_
  rw [hnext]
  exact run_bind_of_ok (h rest)

/-- Two values are read one after the other. -/
theorem run_both {f : α → β → γ} (ha : Recovers a) (hb : Recovers b) (rest : Bytes) :
    (do return f (← Decode.read) (← Decode.read) : Reader γ).run (encode a ++ encode b ++ rest) =
      .ok (f a b, rest) := by
  rw [List.append_assoc]
  exact (run_bind_of_ok (ha _)).trans (run_bind_of_ok (hb rest))

end

/-! ## Texts, pairs and sequences -/

theorem run_readBytes (bytes rest : Bytes) (short : Error) :
    (readBytes bytes.length short).run (bytes ++ rest) = .ok (bytes, rest) := by
  show (if bytes.length ≤ (bytes ++ rest).length then _ else _) = _
  rw [if_pos (by simp), List.take_left' rfl, List.drop_left' rfl]

theorem recovers_string {text : String} (h : (Utf8.encode text).length < wordRange 8) :
    Recovers text := by
  intro rest
  show StateT.run _ (encodeLength _ ++ Utf8.encode text ++ rest) = _
  rw [List.append_assoc]
  refine (run_bind_of_ok (run_readWord h _)).trans
    ((run_bind_of_ok (run_readBytes (Utf8.encode text) rest _)).trans ?_)
  rw [Utf8.decode_encode]
  rfl

theorem recovers_pair {α β : Type} [Encode α] [Decode α] [Encode β] [Decode β] {a : α} {b : β}
    (ha : Recovers a) (hb : Recovers b) : Recovers (a, b) :=
  run_both ha hb

theorem run_readItems {α : Type} [Encode α] [Decode α] {items : List α}
    (h : ∀ item ∈ items, Recovers item) (rest : Bytes) :
    (readItems items.length).run (encodeItems items ++ rest) = .ok (items, rest) := by
  induction items with
  | nil => rfl
  | cons item items ih =>
    have htail := ih fun other hmem ↦ h other (List.mem_cons_of_mem _ hmem)
    show StateT.run _ (encode item ++ encodeItems items ++ rest) = _
    rw [List.append_assoc]
    exact (run_bind_of_ok (h item List.mem_cons_self _)).trans (run_bind_of_ok htail)

theorem recovers_list {α : Type} [Encode α] [Decode α] {items : List α}
    (hlength : items.length < wordRange 8) (h : ∀ item ∈ items, Recovers item) :
    Recovers items := by
  intro rest
  show StateT.run _ (encodeLength items.length ++ encodeItems items ++ rest) = _
  rw [List.append_assoc]
  exact (run_bind_of_ok (run_readWord hlength _)).trans (run_readItems h rest)

/-! ## Extents -/

/-- What there is room for fits a word. -/
theorem lt_of_reserveExtents {count : Nat} (h : reserveExtents Size.hostBlock count = .ok ()) :
    count < wordRange 8 := by
  unfold reserveExtents at h
  split at h
  · have hinPlace : inPlaceExtents < wordRange 8 := by decide
    omega
  · split at h
    · cases h
    · have hmax : maxExtents < wordRange 8 := by decide
      omega

theorem recovers_dims {dims : Dims} (h : reserveExtents Size.hostBlock dims.length = .ok ()) :
    Recovers dims := by
  intro rest
  show StateT.run _ (encodeLength dims.length ++ encodeItems dims ++ rest) = _
  have hreserve : StateT.run (liftM (reserveExtents Size.hostBlock dims.length) : Reader Unit)
      (encodeItems dims ++ rest) = .ok ((), encodeItems dims ++ rest) := by
    rw [h]
    rfl
  rw [List.append_assoc]
  exact (run_bind_of_ok (run_readWord (lt_of_reserveExtents h) _)).trans
    ((run_bind_of_ok hreserve).trans (run_readItems (fun extent _ ↦ recovers_uint64 extent) rest))

theorem recovers_concreteShapes {shapes : ConcreteShapes} (h : shapes.Roomy) :
    Recovers shapes := by
  have hinputs : Recovers shapes.inputs := recovers_list h.inputs_lt fun dims hmem ↦
    recovers_dims (h.room dims (List.mem_append_left _ hmem))
  have houtputs : Recovers shapes.outputs := recovers_list h.outputs_lt fun dims hmem ↦
    recovers_dims (h.room dims (List.mem_append_right _ hmem))
  exact run_both hinputs houtputs

/-! ## Kernels and plans -/

theorem recovers_binaryOp (op : BinaryOp) : Recovers op :=
  recovers_enumerated (by cases op <;> decide) (by decide)

theorem recovers_unaryOp (op : UnaryOp) : Recovers op :=
  recovers_enumerated (by cases op <;> decide) (by decide)

theorem recovers_reduceSpec (spec : ReduceSpec) : Recovers spec := by
  have hkind : Recovers spec.kind :=
    recovers_enumerated (by cases spec.kind <;> decide) (by decide)
  exact run_both hkind (recovers_bool spec.keepDims)

theorem recovers_matMulSpec (spec : MatMulSpec) : Recovers spec :=
  run_both (recovers_bool spec.transposeLhs) (recovers_bool spec.transposeRhs)

theorem recovers_refKernel (kernel : RefKernel) : Recovers kernel := by
  intro rest
  cases kernel with
  | parameter | constant | reshape | reorder =>
    exact run_bind_of_ok (run_readTag (by decide) rest)
  | binary op => exact run_tagged (by decide) rfl (recovers_binaryOp op) rest
  | unary op => exact run_tagged (by decide) rfl (recovers_unaryOp op) rest
  | matMul spec => exact run_tagged (by decide) rfl (recovers_matMulSpec spec) rest
  | reduce spec => exact run_tagged (by decide) rfl (recovers_reduceSpec spec) rest

theorem recovers_parallelKernel (kernel : ParallelKernel) : Recovers kernel := by
  intro rest
  cases kernel with
  | binary op => exact run_tagged (by decide) rfl (recovers_binaryOp op) rest
  | unary op => exact run_tagged (by decide) rfl (recovers_unaryOp op) rest
  | reduce spec => exact run_tagged (by decide) rfl (recovers_reduceSpec spec) rest

theorem recovers_kernelPlan (plan : KernelPlan) : Recovers plan := by
  intro rest
  show StateT.run _ (encode plan.kernel ++ encode plan.elements ++ encode plan.inner
    ++ encode plan.chunk ++ rest) = _
  simp only [List.append_assoc]
  exact (run_bind_of_ok (recovers_parallelKernel plan.kernel _)).trans
    ((run_bind_of_ok (recovers_uint64 plan.elements _)).trans
      ((run_bind_of_ok (recovers_uint64 plan.inner _)).trans
        (run_bind_of_ok (recovers_uint64 plan.chunk rest))))

theorem recovers_gemmPlan (plan : GemmPlan) : Recovers plan := by
  intro rest
  show StateT.run _ (encode plan.spec ++ encode plan.m ++ encode plan.k ++ encode plan.n
    ++ rest) = _
  simp only [List.append_assoc]
  exact (run_bind_of_ok (recovers_matMulSpec plan.spec _)).trans
    ((run_bind_of_ok (recovers_uint64 plan.m _)).trans
      ((run_bind_of_ok (recovers_uint64 plan.k _)).trans
        (run_bind_of_ok (recovers_uint64 plan.n rest))))

end Wire

end TensorEngine
