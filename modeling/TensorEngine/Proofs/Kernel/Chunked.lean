import TensorEngine.Catalogue.Limited
import TensorEngine.Kernel.Chunked
import TensorEngine.Proofs.Kernel.Sequential

/-!
# Chunked kernels compute what sequential kernels compute

Cutting operands and result into chunks changes nothing about the elements: a chunked kernel whose
operands have the right lengths, and whose chunks are not empty, leaves the same elements as the
sequential loop.
-/

namespace TensorEngine.Kernel

variable {α β γ : Type}

/-! ## Chunks -/

theorem chunks_nil {size : Nat} : chunks size ([] : List α) = [] := by
  rw [chunks]
  simp

theorem chunks_of_ne_nil {size : Nat} {items : List α} (hsize : size ≠ 0) (hitems : items ≠ []) :
    chunks size items = items.take size :: chunks size (items.drop size) := by
  rw [chunks, if_neg]
  simpa [hsize] using hitems

/-- Induction along the chunks of a list. -/
theorem chunks_induction {size : Nat} (hsize : size ≠ 0) {motive : List α → Prop}
    (nil : motive [])
    (step : ∀ items, items ≠ [] → motive (items.drop size) → motive items) (items : List α) :
    motive items := by
  induction hlen : items.length using Nat.strongRecOn generalizing items with
  | ind n ih =>
    by_cases hitems : items = []
    · exact hitems ▸ nil
    · have hpos : 0 < items.length := List.length_pos_of_ne_nil hitems
      exact step items hitems (ih (items.drop size).length (by rw [List.length_drop]; omega)
        (items.drop size) rfl)

/-- Chunks of pairs are pairs of chunks. -/
theorem chunks_zip {size : Nat} (hsize : size ≠ 0) (left : List α) :
    ∀ right : List β, left.length = right.length →
      chunks size (left.zip right) =
        ((chunks size left).zip (chunks size right)).map fun pair ↦ pair.1.zip pair.2 := by
  induction left using chunks_induction hsize with
  | nil =>
    intro right _
    simp [chunks_nil]
  | step left hleft ih =>
    intro right hlen
    have hright : right ≠ [] := by
      rintro rfl
      exact hleft (List.eq_nil_of_length_eq_zero hlen)
    have hzip : left.zip right ≠ [] := by
      cases left <;> cases right <;> simp_all
    have htake : (left.zip right).take size = (left.take size).zip (right.take size) := by
      simp [List.zip_eq_zipWith, List.take_zipWith]
    have hdrop : (left.zip right).drop size = (left.drop size).zip (right.drop size) := by
      simp [List.zip_eq_zipWith, List.drop_zipWith]
    rw [chunks_of_ne_nil hsize hzip, chunks_of_ne_nil hsize hleft, chunks_of_ne_nil hsize hright,
      htake, hdrop, ih _ (by simp [hlen]), List.zip_cons_cons, List.map_cons]

theorem take_chunks {size : Nat} (hsize : size ≠ 0) (count : Nat) (items : List α) :
    (chunks size items).take count = chunks size (items.take (count * size)) := by
  induction count generalizing items with
  | zero => simp [chunks_nil]
  | succ count ih =>
    by_cases hitems : items = []
    · simp [hitems, chunks_nil]
    · have htake : items.take ((count + 1) * size) ≠ [] := by
        have hmul : (count + 1) * size ≠ 0 := Nat.mul_ne_zero (Nat.succ_ne_zero _) hsize
        simp only [ne_eq, List.take_eq_nil_iff, hmul, hitems, or_self, not_false_eq_true]
      rw [chunks_of_ne_nil hsize hitems, chunks_of_ne_nil hsize htake, List.take_succ_cons, ih,
        List.take_take, List.drop_take, Nat.succ_mul, Nat.add_sub_cancel,
        Nat.min_eq_left (Nat.le_add_left _ _)]

theorem drop_chunks {size : Nat} (hsize : size ≠ 0) (count : Nat) (items : List α) :
    (chunks size items).drop count = chunks size (items.drop (count * size)) := by
  induction count generalizing items with
  | zero => simp
  | succ count ih =>
    by_cases hitems : items = []
    · simp [hitems, chunks_nil]
    · rw [chunks_of_ne_nil hsize hitems, List.drop_succ_cons, ih, List.drop_drop, Nat.succ_mul,
        Nat.add_comm]

/-- Chunks of chunks are chunks of as many items. -/
theorem map_chunks_mul {size count : Nat} (hsize : size ≠ 0) (hcount : count ≠ 0)
    (items : List α) :
    (chunks (count * size) items).map (chunks size) = chunks count (chunks size items) := by
  have hmul : count * size ≠ 0 := Nat.mul_ne_zero hcount hsize
  induction items using chunks_induction hmul with
  | nil => simp [chunks_nil]
  | step items hitems ih =>
    have hchunks : chunks size items ≠ [] := by
      rw [chunks_of_ne_nil hsize hitems]
      exact List.cons_ne_nil _ _
    rw [chunks_of_ne_nil hmul hitems, List.map_cons, ih, chunks_of_ne_nil hcount hchunks,
      take_chunks hsize, drop_chunks hsize]

/-- Items cut into chunks without remainder. -/
theorem chunks_mul {size count : Nat} (hsize : size ≠ 0) {items : List α}
    (hlen : items.length = count * size) :
    chunks size items = (List.range count).map fun j ↦ (items.drop (j * size)).take size := by
  induction count generalizing items with
  | zero =>
    rw [Nat.zero_mul] at hlen
    rw [List.eq_nil_of_length_eq_zero hlen, chunks_nil]
    rfl
  | succ count ih =>
    have hitems : items ≠ [] := by
      rintro rfl
      rw [List.length_nil, Nat.succ_mul] at hlen
      omega
    rw [chunks_of_ne_nil hsize hitems,
      ih (by rw [List.length_drop, hlen, Nat.succ_mul, Nat.add_sub_cancel]),
      List.range_succ_eq_map, List.map_cons, List.map_map, Nat.zero_mul, List.drop_zero]
    refine congrArg _ (List.map_congr_left fun j _ ↦ ?_)
    rw [Function.comp_apply, List.drop_drop, Nat.succ_mul, Nat.add_comm]

/-! ## Replacing items -/

/-- Items that are replaced whatever they were. -/
theorem updateWith_const {f : β → α} {olds : List α} {sources : List β}
    (h : olds.length = sources.length) :
    updateWith (fun _ source ↦ f source) olds sources = sources.map f := by
  induction olds generalizing sources with
  | nil =>
    rw [List.length_nil] at h
    rw [List.eq_nil_of_length_eq_zero h.symm]
    rfl
  | cons old olds ih =>
    cases sources with
    | nil => simp at h
    | cons source sources => rw [updateWith, ih (by simpa using h), List.map_cons]

theorem updateWith_map {update : α → γ → α} {f : β → γ} {olds : List α} {sources : List β} :
    updateWith update olds (sources.map f) =
      updateWith (fun old source ↦ update old (f source)) olds sources := by
  induction olds generalizing sources with
  | nil => cases sources <;> rfl
  | cons old olds ih =>
    cases sources with
    | nil => rfl
    | cons source sources => rw [List.map_cons, updateWith, updateWith, ih]

/-- Replacing chunk by chunk is replacing item by item. -/
theorem flatten_updateWith_chunks {f : β → α} {size : Nat} (hsize : size ≠ 0) (olds : List α) :
    ∀ sources : List β, olds.length = sources.length →
      (updateWith (updateWith fun _ source ↦ f source) (chunks size olds)
        (chunks size sources)).flatten = sources.map f := by
  induction olds using chunks_induction hsize with
  | nil =>
    intro sources h
    rw [List.length_nil] at h
    rw [List.eq_nil_of_length_eq_zero h.symm]
    simp [chunks_nil, updateWith]
  | step olds holds ih =>
    intro sources h
    have hsources : sources ≠ [] := by
      rintro rfl
      exact holds (List.eq_nil_of_length_eq_zero h)
    rw [chunks_of_ne_nil hsize holds, chunks_of_ne_nil hsize hsources, updateWith,
      List.flatten_cons, ih _ (by simp [h]), updateWith_const (by simp [h]), ← List.map_append,
      List.take_append_drop]

/-! ## Elementwise kernels -/

variable {chunk inner : Nat} {lhs rhs input out : Array F32}

theorem element_eq_ok {values : Array α} {j : Nat} (h : j < values.size) :
    element values j = .ok values[j] := by
  rw [element, Array.getElem?_eq_getElem h]

theorem checkLength_eq_ok {what : String} {expected actual : Nat} (h : expected = actual) :
    checkLength what expected actual = .ok () := if_pos h

/-- What the sequential loop makes of pairs of elements. -/
theorem zipWith_eq {apply : α → α → α} {lhs rhs out : Array α} (hlhs : lhs.size = out.size)
    (hrhs : rhs.size = out.size) :
    zipWith (fun x y ↦ .ok (apply x y)) lhs rhs out = ⟨.ok (), Array.zipWith apply lhs rhs⟩ := by
  refine fillAfter_eq_ok ?_ (by simp [hlhs, hrhs]) fun j hj ↦ ?_
  · rw [checkLength_eq_ok hlhs.symm, ok_bind, checkLength_eq_ok hrhs.symm]
  · rw [Array.size_zipWith] at hj
    rw [element_eq_ok (by omega), element_eq_ok (by omega), Array.getElem_zipWith]
    rfl

theorem zipWithChunked_eq {apply : F32 → F32 → F32} (hchunk : chunk ≠ 0)
    (hlhs : lhs.size = out.size) (hrhs : rhs.size = out.size) :
    zipWithChunked apply chunk lhs rhs out = ⟨.ok (), Array.zipWith apply lhs rhs⟩ := by
  rw [zipWithChunked, if_neg (by simp [hlhs, hrhs]), if_neg hchunk]
  refine congrArg _ (Array.toList_inj.1 ?_)
  have hpairs := flatten_updateWith_chunks (f := fun pair : F32 × F32 ↦ apply pair.1 pair.2) hchunk
    out.toList (lhs.toList.zip rhs.toList) (by simp [hlhs, hrhs])
  rw [chunks_zip hchunk _ _ (by simp [hlhs, hrhs]), updateWith_map] at hpairs
  rw [Array.toList_zipWith, ← List.map_uncurry_zip_eq_zipWith]
  exact hpairs

/-- An elementwise kernel that ends well has chunks with elements. -/
theorem chunk_ne_zero_of_zipWithChunked {apply : F32 → F32 → F32}
    (h : (zipWithChunked apply chunk lhs rhs out).ended = .ok ()) : chunk ≠ 0 := by
  unfold zipWithChunked at h
  split at h
  · cases h
  · split at h
    · cases h
    · assumption

theorem chunk_ne_zero_of_mapChunked {apply : F32 → F32}
    (h : (mapChunked apply chunk input out).ended = .ok ()) : chunk ≠ 0 := by
  unfold mapChunked at h
  split at h
  · cases h
  · split at h
    · cases h
    · assumption

theorem combine_eq {apply : F32 → F32 → F32} (hlhs : lhs.size = out.size)
    (hrhs : rhs.size = out.size) :
    LimitedImplementation.combine apply lhs rhs out = Array.zipWith apply lhs rhs := by
  have hsize : (Array.zipWith apply lhs rhs).size = out.size := by simp [hlhs, hrhs]
  simp [LimitedImplementation.combine, TensorData.overwriteArray, hsize]

theorem map_eq {apply : α → α} {input out : Array α} (h : input.size = out.size) :
    Kernel.map (fun x ↦ .ok (apply x)) input out = ⟨.ok (), input.map apply⟩ := by
  refine fillAfter_eq_ok (checkLength_eq_ok h.symm) (by simp [h]) fun j hj ↦ ?_
  rw [Array.size_map] at hj
  rw [element_eq_ok hj, Array.getElem_map]
  rfl

theorem mapChunked_eq {apply : F32 → F32} (hchunk : chunk ≠ 0) (h : input.size = out.size) :
    mapChunked apply chunk input out = ⟨.ok (), input.map apply⟩ := by
  rw [mapChunked, if_neg (by simp [h]), if_neg hchunk]
  refine congrArg _ (Array.toList_inj.1 ?_)
  rw [Array.toList_map]
  exact flatten_updateWith_chunks hchunk out.toList input.toList (by simp [h])

/-! ## Reductions -/

def rowValues (row : Array α → α) (inner rows : Nat) (input : Array α) : Array α :=
  Array.ofFn fun j : Fin rows ↦ row (input.extract (j * inner) ((j + 1) * inner))

theorem reduceRows_eq {row : Array α → α} {input out : Array α}
    (hsize : input.size = out.size * inner) (hword : out.size * inner < Size.wordCount) :
    reduceRows row inner input out = ⟨.ok (), rowValues row inner out.size input⟩ := by
  refine fillAfter_eq_ok ?_ (by simp [rowValues]) fun j hj ↦ ?_
  · rw [times_of_lt hword, ok_bind, checkLength_eq_ok hsize.symm]
  · simp only [rowValues, Array.size_ofFn] at hj
    have hstop : (j + 1) * inner ≤ input.size := hsize ▸ Nat.mul_le_mul_right _ hj
    rw [slice, if_pos hstop]
    simp [rowValues]

/-- How long rows are does not matter when there are none. -/
theorem rowValues_congr {row : Array α → α} {inner inner' rows : Nat} (input : Array α)
    (h : rows * inner = rows * inner') :
    rowValues row inner rows input = rowValues row inner' rows input := by
  rcases Nat.eq_zero_or_pos rows with rfl | hpos
  · exact Array.ext (by simp [rowValues]) fun j hj _ ↦ by simp [rowValues] at hj
  · rw [Nat.eq_of_mul_eq_mul_left hpos h]

/-- A chunked reduction starts when its operand has the length it asks for, its chunks have elements
unless its rows have none, and its products fit a word. -/
theorem rowsOfChunk_eq_ok_iff {size length items : Nat} :
    rowsOfChunk chunk inner size length = .ok items ↔
      (length = size * inner ∧ size * inner < Size.wordCount) ∧
        (inner ≠ 0 → chunk ≠ 0) ∧ chunk * inner = items ∧ items < Size.wordCount := by
  by_cases hword : size * inner < Size.wordCount
  · rw [rowsOfChunk, times_of_lt hword, ok_bind]
    by_cases hlength : length = size * inner
    · by_cases hinner : inner = 0
      · subst hinner
        simp +contextual [hlength, eq_comm, show 0 < Size.wordCount by decide]
      · by_cases hchunk : chunk = 0
        · simp [hlength, hinner, hchunk]
        · simp [hlength, hinner, hchunk, hword, times_eq_ok_iff]
    · simp [hlength]
  · rw [rowsOfChunk, times_of_le (Nat.not_lt.1 hword), error_bind]
    simp [hword]

theorem of_reduceChunked {row : Array F32 → F32}
    (h : (reduceChunked row chunk inner input out).ended = .ok ()) :
    (input.size = out.size * inner ∧ out.size * inner < Size.wordCount) ∧
      (inner ≠ 0 → chunk ≠ 0) ∧ chunk * inner < Size.wordCount := by
  unfold reduceChunked at h
  cases hrows : rowsOfChunk chunk inner out.size input.size with
  | error fault => rw [hrows] at h; cases h
  | ok items =>
    obtain ⟨hsize, hchunk, rfl, hword⟩ := rowsOfChunk_eq_ok_iff.1 hrows
    exact ⟨hsize, hchunk, hword⟩

theorem reduceChunked_eq {row : Array F32 → F32} (hchunk : inner ≠ 0 → chunk ≠ 0)
    (hsize : input.size = out.size * inner) (hword : out.size * inner < Size.wordCount)
    (hrows : chunk * inner < Size.wordCount) :
    reduceChunked row chunk inner input out = ⟨.ok (), rowValues row inner out.size input⟩ := by
  have hitems : rowsOfChunk chunk inner out.size input.size = .ok (chunk * inner) :=
    rowsOfChunk_eq_ok_iff.2 ⟨⟨hsize, hword⟩, hchunk, rfl, hrows⟩
  rw [reduceChunked, hitems, ok_bind]
  by_cases hinner : inner = 0
  · subst hinner
    rw [if_pos rfl]
    refine congrArg (Outcome.mk (.ok ())) (Array.ext (by simp [rowValues]) fun j h₁ h₂ ↦ ?_)
    simp [rowValues]
  · rw [if_neg hinner]
    refine congrArg (Outcome.mk (.ok ())) (Array.toList_inj.1 ?_)
    have hcut : chunks inner input.toList =
        (List.range out.size).map fun j ↦ (input.toList.drop (j * inner)).take inner :=
      chunks_mul hinner (by simp [hsize])
    have hlen : (chunks inner input.toList).length = out.size := by simp [hcut]
    have hflat := flatten_updateWith_chunks (f := fun items : List F32 ↦ row items.toArray)
      (hchunk hinner) out.toList (chunks inner input.toList) (by simp [hlen])
    rw [← map_chunks_mul hinner (hchunk hinner), updateWith_map] at hflat
    refine hflat.trans ?_
    rw [hcut, List.map_map]
    refine List.ext_getElem (by simp [rowValues]) fun j h₁ h₂ ↦ ?_
    have hrow : ((input.toList.drop (j * inner)).take inner).toArray =
        input.extract (j * inner) ((j + 1) * inner) := by
      rw [← Array.toList_inj, Array.toList_extract, List.extract_eq_take_drop, Nat.succ_mul,
        Nat.add_sub_cancel_left]
    simp [rowValues, hrow]

/-- A reduction that ends well reduces the rows of its operand, whatever it takes for their length:
the length is right, or there are no rows. -/
theorem out_reduceChunked {row : Array F32 → F32} {length : Nat}
    (hsize : input.size = out.size * length)
    (h : (reduceChunked row chunk inner input out).ended = .ok ()) :
    (reduceChunked row chunk inner input out).out = rowValues row length out.size input := by
  obtain ⟨⟨hlength, hword⟩, hchunk, hrows⟩ := of_reduceChunked h
  rw [reduceChunked_eq hchunk hlength hword hrows]
  exact rowValues_congr input (hlength.symm.trans hsize)

end TensorEngine.Kernel
