import TensorEngine.Memory.Pool
import TensorEngine.Proofs.Sequencing

/-!
# Storage

The elements of a slot, and what growing, writing and reading do to them.  A slot is read from the
front, so all that matters about it is which elements it begins with; what lies behind them are
remains of earlier tenants.
-/

namespace TensorEngine

namespace TensorData

variable {data target source value : TensorData} {n count : Nat}

/-! ## Types and sizes -/

@[simp] theorem dtype_take : (data.take n).dtype = data.dtype := by
  cases data <;> rfl

@[simp] theorem size_take : (data.take n).size = min n data.size := by
  cases data <;> simp [take, size]

@[simp] theorem dtype_pad : (data.pad n).dtype = data.dtype := by
  cases data <;> rfl

@[simp] theorem size_pad : (data.pad n).size = max data.size n := by
  cases data <;> simp [pad, size, padWith] <;> omega

@[simp] theorem dtype_zeros {dtype : DType} : (zeros n dtype).dtype = dtype := by
  cases dtype <;> rfl

@[simp] theorem size_zeros {dtype : DType} : (zeros n dtype).size = n := by
  cases dtype <;> simp [zeros, size]

@[simp] theorem dtype_empty {dtype : DType} : (empty dtype).dtype = dtype := by
  cases dtype <;> rfl

@[simp] theorem dtype_overwrite : (target.overwrite source).dtype = target.dtype := by
  cases target <;> cases source <;> rfl

/-! ## What storage begins with -/

/-- The storage begins with some elements. -/
def Begins (data value : TensorData) : Prop := data.take value.size = value

theorem Begins.size_le (h : data.Begins value) : value.size ≤ data.size := by
  have hsize : (data.take value.size).size = value.size := by rw [h]
  rw [size_take] at hsize
  omega

private theorem take_overwriteArray {α : Type} {old new : Array α} (h : new.size ≤ old.size) :
    (overwriteArray old new).take new.size = new := by
  apply Array.ext
  · simp [overwriteArray]
    omega
  · intro i h₁ h₂
    simp only [overwriteArray, Array.take_eq_extract, Array.getElem_extract]
    rw [Array.getElem_append_left (by simp; omega)]
    simp

/-- What was written stands in front. -/
theorem begins_overwrite (hdtype : source.dtype = target.dtype)
    (hsize : source.size ≤ target.size) : (target.overwrite source).Begins source := by
  unfold Begins
  cases target <;> cases source <;> simp only [dtype, reduceCtorEq] at hdtype <;>
    simp only [overwrite, take, size] <;> rw [take_overwriteArray hsize]

/-- A copy succeeds exactly when the type is the same and there is room. -/
theorem copyFrom_eq_ok_iff {result : TensorData} : target.copyFrom source = .ok result ↔
    source.dtype = target.dtype ∧ source.size ≤ target.size ∧ target.overwrite source = result := by
  unfold copyFrom
  by_cases hdtype : source.dtype = target.dtype
  · by_cases hsize : source.size ≤ target.size <;> simp [hdtype, hsize]
  · simp [hdtype]

/-- Elements in front are what a view shows. -/
theorem Begins.view_eq (h : data.Begins value) : data.view value.size = .ok value := by
  rw [view, if_pos h.size_le, h]

theorem view_eq_ok_iff {result : TensorData} :
    data.view n = .ok result ↔ n ≤ data.size ∧ data.take n = result := by
  unfold view
  split <;> simp [*]

end TensorData

/-! ## Slots -/

namespace MemoryPool

variable {pool pool' : MemoryPool} {slot s n : Nat} {grew : Bool} {data : TensorData}

theorem read_eq_ok_iff : pool.read s = .ok data ↔ pool.slots[s]? = some data := by
  unfold read
  cases pool.slots[s]? <;> simp

/-- A request for room that is granted changes at most the slot it is for, which is then large
enough and has the elements of the same type. -/
theorem ensureCapacity_eq_ok (h : pool.ensureCapacity slot n = .ok (grew, pool')) :
    ∃ data data', pool.slots[slot]? = some data ∧ pool'.slots = pool.slots.set slot data' ∧
      data'.dtype = data.dtype ∧ data'.size = max data.size n ∧
      pool'.limit = pool.limit ∧ pool'.granted = pool.granted := by
  unfold ensureCapacity at h
  obtain ⟨data, hread, h⟩ := bind_eq_ok_iff.1 h
  have hslot := read_eq_ok_iff.1 hread
  refine ⟨data, ?_⟩
  by_cases hroom : n ≤ data.size
  · simp only [hroom, if_true, pure_eq_ok, Except.ok.injEq, Prod.mk.injEq] at h
    obtain ⟨_, rfl⟩ := h
    refine ⟨data, hslot, ?_, rfl, (Nat.max_eq_left hroom).symm, rfl, rfl⟩
    obtain ⟨hlt, hget⟩ := List.getElem?_eq_some_iff.1 hslot
    rw [← hget, List.set_getElem_self]
  · simp only [hroom, if_false] at h
    split at h
    · obtain ⟨grown, hgrow, h⟩ := bind_eq_ok_iff.1 h
      simp only [pure_eq_ok, Except.ok.injEq, Prod.mk.injEq] at h
      obtain ⟨_, rfl⟩ := h
      rw [mapError_eq_ok_iff, TensorData.grow, if_neg hroom] at hgrow
      have hgrown : grown = data.pad n := by
        split at hgrow
        · cases hgrow
        · split at hgrow
          · cases hgrow
          · cases hgrow
            rfl
      subst hgrown
      exact ⟨data.pad n, hslot, rfl, TensorData.dtype_pad, TensorData.size_pad, rfl, rfl⟩
    · simp at h

end MemoryPool

end TensorEngine
