import Mathlib.Algebra.GroupWithZero.Nat
import TensorEngine.Proofs.Memory.Assignment
import TensorEngine.Proofs.Memory.Storage

/-!
# Bytes that are held

A pool counts the bytes of its slots.  A request for room is charged first and grows the slot
afterwards; when the slot cannot grow, the charge is given back.  Along every sequence of requests
and writes the count is the sum over the slots, stays within the limit and within a word, and no
slot ever shrinks.
-/

namespace TensorEngine

/-! ## Elements in front and behind -/

namespace TensorData

variable {data target source : TensorData} {n : Nat}

/-- The elements behind the first ones. -/
def drop (data : TensorData) (n : Nat) : TensorData :=
  match data with
  | .f32 values => .f32 (values.extract n values.size)
  | .i32 values => .i32 (values.extract n values.size)
  | .u8 values => .u8 (values.extract n values.size)

/-- Storage that grows keeps its elements in front. -/
theorem begins_pad (data : TensorData) (n : Nat) : (data.pad n).Begins data := by
  cases data <;> simp [Begins, pad, padWith, take, size]

/-- Storage that grows has zeros behind its elements. -/
theorem drop_pad (data : TensorData) (n : Nat) :
    (data.pad n).drop data.size = zeros (n - data.size) data.dtype := by
  cases data <;> simp [drop, pad, padWith, zeros, size, dtype]

theorem pad_of_le (h : n ≤ data.size) : data.pad n = data := by
  cases data <;> simp_all [pad, padWith, size]

@[simp] theorem size_empty {dtype : DType} : (empty dtype).size = 0 := by
  cases dtype <;> rfl

private theorem size_overwriteArray {α : Type} {old new : Array α} :
    (overwriteArray old new).size = old.size := by
  simp only [overwriteArray, Array.size_append, Array.size_extract, Array.take_eq_extract]
  omega

@[simp] theorem size_overwrite : (target.overwrite source).size = target.size := by
  cases target <;> cases source <;> simp [overwrite, size, size_overwriteArray]

end TensorData

/-- A product that is clamped below the largest word is the product. -/
theorem Size.saturatingMul_of_lt {a b : Nat} (h : a * b < wordCount) : saturatingMul a b = a * b :=
  Nat.min_eq_left (Nat.le_pred_of_lt h)

theorem Size.saturatingMul_lt (a b : Nat) : saturatingMul a b < wordCount :=
  Nat.lt_of_le_of_lt (Nat.min_le_right _ _) (by decide)

namespace MemoryPool

variable {pool pool' : MemoryPool} {slot s n additional total : Nat} {data data' : TensorData}

/-! ## Requests step by step -/

/-- Gives charged bytes back; the count wraps around. -/
def refund (pool : MemoryPool) (additional : Nat) : MemoryPool :=
  { pool with allocated := (pool.allocated + (Size.wordCount - additional)) % Size.wordCount }

/-- A request for room, with the pool that it leaves: bytes are charged before the slot grows, and
given back when it cannot. -/
def request (pool : MemoryPool) (slot elements : Nat) : Except AllocationError Bool × MemoryPool :=
  match pool.read slot with
  | .error error => (.error error, pool)
  | .ok data =>
    if elements ≤ data.size then (.ok false, pool)
    else
      let requested := Size.saturatingMul elements data.dtype.sizeInBytes
      let additional := Size.saturatingMul (elements - data.size) data.dtype.sizeInBytes
      match pool.charge? additional with
      | none => (.error ⟨requested, slot, .limit pool.allocated pool.limit⟩, pool)
      | some allocated =>
        let charged := { pool with allocated }
        match data.grow elements pool.granted with
        | .error error => (.error ⟨requested, slot, .growth error⟩, charged.refund additional)
        | .ok grown => (.ok true, charged.set slot grown)

theorem charge?_eq_some_iff : pool.charge? additional = some total ↔
    pool.allocated + additional = total ∧ total < Size.wordCount ∧
      ∀ bytes ∈ pool.limit, total ≤ bytes := by
  unfold charge? Size.add?
  by_cases hword : pool.allocated + additional < Size.wordCount
  · cases hlimit : pool.limit with
    | none =>
      simp only [hword, if_true, Option.bind_eq_bind, Option.bind_some, Option.pure_def,
        Option.some.injEq, Option.mem_def, reduceCtorEq, false_implies, implies_true, and_true]
      exact ⟨fun h ↦ ⟨h, h ▸ hword⟩, fun h ↦ h.1⟩
    | some bytes =>
      simp only [hword, if_true, Option.bind_eq_bind, Option.bind_some, Option.pure_def,
        Option.mem_def, Option.some.injEq, forall_eq']
      split
      · simp only [reduceCtorEq, false_iff]
        omega
      · simp only [Option.some.injEq]
        omega
  · simp only [hword, if_false, Option.bind_eq_bind, Option.bind_none, reduceCtorEq, false_iff]
    omega

/-- What is charged and given back leaves the count as it was. -/
theorem refund_charge (h : pool.allocated < Size.wordCount)
    (hadditional : additional < Size.wordCount) (htotal : pool.allocated + additional = total) :
    refund { pool with allocated := total } additional = pool := by
  subst htotal
  have hcount : pool.allocated + additional + (Size.wordCount - additional) =
      pool.allocated + Size.wordCount := by omega
  simp only [refund, hcount, Nat.add_mod_right, Nat.mod_eq_of_lt h]

/-- There is room for a slot with these elements to grow. -/
structure Fits (pool : MemoryPool) (data : TensorData) (n : Nat) : Prop where
  lt_wordCount : pool.allocated + (n - data.size) * data.dtype.sizeInBytes < Size.wordCount
  le_limit : ∀ bytes ∈ pool.limit,
    pool.allocated + (n - data.size) * data.dtype.sizeInBytes ≤ bytes
  le_maxBlock : n * data.dtype.sizeInBytes ≤ Size.maxBlock
  le_granted : n * data.dtype.sizeInBytes ≤ pool.granted

def grown (pool : MemoryPool) (slot : Nat) (data : TensorData) (n : Nat) : MemoryPool :=
  { pool.set slot (data.pad n) with
    allocated := pool.allocated + (n - data.size) * data.dtype.sizeInBytes }

/-- How a request goes. -/
inductive Requested (pool : MemoryPool) (slot n : Nat) :
    Except AllocationError Bool × MemoryPool → Prop
  | roomy {data : TensorData} (hslot : pool.slots[slot]? = some data) (hroom : n ≤ data.size) :
      Requested pool slot n (.ok false, pool)
  | grown {data : TensorData} (hslot : pool.slots[slot]? = some data) (hshort : data.size < n)
      (hfits : pool.Fits data n) : Requested pool slot n (.ok true, pool.grown slot data n)
  | refused (error : AllocationError) (hwhy : ∀ data, pool.slots[slot]? = some data →
      data.size < n ∧ ¬pool.Fits data n) : Requested pool slot n (.error error, pool)

/-- The clamped charge of a request that a slot can grow for is exact. -/
theorem saturatingMul_eq_of_le_maxBlock {elements size : Nat}
    (h : elements * data.dtype.sizeInBytes ≤ Size.maxBlock) :
    Size.saturatingMul (elements - size) data.dtype.sizeInBytes =
      (elements - size) * data.dtype.sizeInBytes := by
  refine Size.saturatingMul_of_lt ?_
  calc
    _ ≤ elements * data.dtype.sizeInBytes := Nat.mul_le_mul_right _ (Nat.sub_le _ _)
    _ ≤ Size.maxBlock := h
    _ < Size.wordCount := by decide

/-- Growing succeeds within the largest block and what the host grants. -/
theorem grow_eq_ok_iff (hshort : data.size < n) {granted : Nat} : data.grow n granted = .ok data' ↔
    (n * data.dtype.sizeInBytes ≤ Size.maxBlock ∧ n * data.dtype.sizeInBytes ≤ granted) ∧
      data.pad n = data' := by
  rw [TensorData.grow, if_neg (Nat.not_le.2 hshort)]
  by_cases hblock : n * data.dtype.sizeInBytes ≤ Size.maxBlock
  · by_cases hgranted : n * data.dtype.sizeInBytes ≤ granted
    · simp [hblock, hgranted, Nat.not_lt.2]
    · simp [hblock, hgranted, Nat.not_lt.2, Nat.lt_of_not_le]
  · simp [hblock, Nat.lt_of_not_le]

/-- Every request goes one of these ways. -/
theorem requested_request (hcount : pool.allocated < Size.wordCount) :
    pool.Requested slot n (pool.request slot n) := by
  unfold request
  cases hread : pool.read slot with
  | error error =>
    refine .refused error fun data hslot ↦ ?_
    rw [read_eq_ok_iff.2 hslot] at hread
    cases hread
  | ok data =>
    have hslot := read_eq_ok_iff.1 hread
    have hsame : ∀ other, pool.slots[slot]? = some other → other = data :=
      fun other hother ↦ Option.some.inj (hother.symm.trans hslot)
    by_cases hroom : n ≤ data.size
    · simp only [hroom, if_true]
      exact .roomy hslot hroom
    · have hshort := Nat.lt_of_not_le hroom
      simp only [hroom, if_false]
      cases hcharge : pool.charge? (Size.saturatingMul (n - data.size) data.dtype.sizeInBytes) with
      | none =>
        refine .refused _ fun other hother ↦ ?_
        obtain rfl := hsame other hother
        refine ⟨hshort, fun hfits ↦ ?_⟩
        rw [saturatingMul_eq_of_le_maxBlock hfits.le_maxBlock,
          charge?_eq_some_iff.2 ⟨rfl, hfits.lt_wordCount, hfits.le_limit⟩] at hcharge
        cases hcharge
      | some total =>
        obtain ⟨htotal, hword, hlimit⟩ := charge?_eq_some_iff.1 hcharge
        cases hgrow : data.grow n pool.granted with
        | error error =>
          simp only
          rw [refund_charge hcount (Size.saturatingMul_lt _ _) htotal]
          refine .refused _ fun other hother ↦ ?_
          obtain rfl := hsame other hother
          refine ⟨hshort, fun hfits ↦ ?_⟩
          rw [(grow_eq_ok_iff hshort).2 ⟨⟨hfits.le_maxBlock, hfits.le_granted⟩, rfl⟩] at hgrow
          cases hgrow
        | ok larger =>
          simp only
          obtain ⟨⟨hblock, hgranted⟩, rfl⟩ := (grow_eq_ok_iff hshort).1 hgrow
          rw [saturatingMul_eq_of_le_maxBlock hblock] at htotal
          subst htotal
          exact .grown hslot hshort ⟨hword, hlimit, hblock, hgranted⟩

/-- Seen from outside, a request is the step that answers the pool only when it succeeds. -/
theorem request_eq (hcount : pool.allocated < Size.wordCount) : pool.request slot n =
    match pool.ensureCapacity slot n with
    | .ok (grew, pool') => (.ok grew, pool')
    | .error error => (.error error, pool) := by
  unfold request ensureCapacity
  cases pool.read slot with
  | error error => rfl
  | ok data =>
    by_cases hroom : n ≤ data.size
    · simp [hroom]
    · simp only [hroom, if_false, ok_bind]
      cases hcharge : pool.charge? (Size.saturatingMul (n - data.size) data.dtype.sizeInBytes) with
      | none => rfl
      | some total =>
        obtain ⟨htotal, _⟩ := charge?_eq_some_iff.1 hcharge
        cases hgrow : data.grow n pool.granted with
        | error error =>
          simp only [Except.mapError, error_bind]
          rw [refund_charge hcount (Size.saturatingMul_lt _ _) htotal]
        | ok larger => rfl

/-! ## The count -/

def heldBytes (pool : MemoryPool) : Nat := (pool.slots.map TensorData.byteSize).sum

/-- The count is right, and within a word and the limit. -/
structure Accounted (pool : MemoryPool) : Prop where
  allocated_eq : pool.allocated = pool.heldBytes
  lt_wordCount : pool.allocated < Size.wordCount
  le_limit : ∀ bytes ∈ pool.limit, pool.allocated ≤ bytes

/-- Other elements in a slot change the bytes by those of the slot. -/
theorem heldBytes_set (h : pool.slots[slot]? = some data) :
    (pool.set slot data').heldBytes + data.byteSize = pool.heldBytes + data'.byteSize := by
  simp only [heldBytes, MemoryPool.set]
  generalize pool.slots = slots at h
  induction slots generalizing slot with
  | nil => cases h
  | cons first slots ih =>
    cases slot with
    | zero =>
      obtain rfl := Option.some.inj h
      simp only [List.set_cons_zero, List.map_cons, List.sum_cons]
      omega
    | succ slot =>
      have hrest := ih h
      simp only [List.set_cons_succ, List.map_cons, List.sum_cons]
      omega

theorem slotSize_eq (h : pool.slots[slot]? = some data) : pool.slotSize slot = data.size := by
  rw [slotSize, h, Option.map_some, Option.getD_some]

/-- Elements in place of as many others, or of fewer, shorten no slot. -/
theorem slotSize_le_set (h : pool.slots[slot]? = some data) (hsize : data.size ≤ data'.size) :
    pool.slotSize s ≤ (pool.set slot data').slotSize s := by
  have hlt := (List.getElem?_eq_some_iff.1 h).1
  rcases eq_or_ne slot s with rfl | hne
  · rwa [slotSize_eq h, slotSize_eq (List.getElem?_set_self hlt)]
  · simp only [slotSize, MemoryPool.set, List.getElem?_set_ne hne, Nat.le_refl]

/-- A slot that grows is charged for exactly its new elements. -/
theorem Accounted.grown (h : pool.Accounted) (hslot : pool.slots[slot]? = some data)
    (hshort : data.size < n) (hfits : pool.Fits data n) : (pool.grown slot data n).Accounted := by
  refine ⟨?_, hfits.lt_wordCount, hfits.le_limit⟩
  have hheld : (pool.set slot (data.pad n)).heldBytes + data.byteSize =
      pool.heldBytes + (data.pad n).byteSize := heldBytes_set hslot
  rw [TensorData.byteSize, TensorData.byteSize, TensorData.dtype_pad, TensorData.size_pad,
    Nat.max_eq_right (Nat.le_of_lt hshort)] at hheld
  have hbytes : (n - data.size) * data.dtype.sizeInBytes + data.size * data.dtype.sizeInBytes =
      n * data.dtype.sizeInBytes := by rw [← Nat.add_mul, Nat.sub_add_cancel (Nat.le_of_lt hshort)]
  have hcount := h.allocated_eq
  show pool.allocated + (n - data.size) * data.dtype.sizeInBytes =
    (pool.set slot (data.pad n)).heldBytes
  omega

/-- However a request goes, the count stays right. -/
theorem Requested.accounted {answer : Except AllocationError Bool × MemoryPool}
    (h : pool.Requested slot n answer) (haccounted : pool.Accounted) : answer.2.Accounted := by
  cases h with
  | roomy | refused => exact haccounted
  | grown hslot hshort hfits => exact haccounted.grown hslot hshort hfits

/-- No request shrinks a slot. -/
theorem Requested.slotSize_le {answer : Except AllocationError Bool × MemoryPool}
    (h : pool.Requested slot n answer) : pool.slotSize s ≤ answer.2.slotSize s := by
  cases h with
  | roomy | refused => exact Nat.le_refl _
  | grown hslot =>
    exact slotSize_le_set hslot (TensorData.size_pad ▸ Nat.le_max_left _ _)

/-- What the answer to a request says, and what it leaves. -/
structure Answers (pool : MemoryPool) (slot n : Nat)
    (answer : Except AllocationError Bool × MemoryPool) : Prop where
  /-- A request is granted when the slot has room, or when there is room for it to grow. -/
  isOk_iff : answer.1.isOk ↔
    ∃ data, pool.slots[slot]? = some data ∧ (n ≤ data.size ∨ pool.Fits data n)
  /-- A slot that was too short has its elements in front, and zeros behind them. -/
  grows : ∀ grew, answer.1 = .ok grew → (grew = true ↔ pool.slotSize slot < n) ∧
    ∃ data data', pool.slots[slot]? = some data ∧
      answer.2.slots = pool.slots.set slot data' ∧ data'.size = max data.size n ∧
      data'.Begins data ∧ data'.drop data.size = .zeros (n - data.size) data.dtype
  /-- A request that is refused changes nothing. -/
  eq_of_error : ∀ error, answer.1 = .error error → answer.2 = pool

/-- Every request is answered that way. -/
theorem Requested.answers {answer : Except AllocationError Bool × MemoryPool}
    (h : pool.Requested slot n answer) : pool.Answers slot n answer := by
  cases h with
  | @roomy data hslot hroom =>
    refine ⟨iff_of_true rfl ⟨data, hslot, .inl hroom⟩, ?_, fun _ h ↦ nomatch h⟩
    rintro _ ⟨⟩
    refine ⟨by simp [slotSize_eq hslot, hroom], data, data.pad n, hslot, ?_,
      TensorData.size_pad, TensorData.begins_pad data n, TensorData.drop_pad data n⟩
    obtain ⟨hlt, hget⟩ := List.getElem?_eq_some_iff.1 hslot
    rw [TensorData.pad_of_le hroom, ← hget, List.set_getElem_self]
  | @grown data hslot hshort hfits =>
    refine ⟨iff_of_true rfl ⟨data, hslot, .inr hfits⟩, ?_, fun _ h ↦ nomatch h⟩
    rintro _ ⟨⟩
    exact ⟨by simp [slotSize_eq hslot, hshort], data, data.pad n, hslot, rfl,
      TensorData.size_pad, TensorData.begins_pad data n, TensorData.drop_pad data n⟩
  | refused error hwhy =>
    refine ⟨iff_of_false Bool.false_ne_true ?_, fun _ h ↦ (nomatch h), fun _ _ ↦ rfl⟩
    rintro ⟨data, hslot, hroom | hfits⟩
    · exact Nat.not_le.2 (hwhy data hslot).1 hroom
    · exact (hwhy data hslot).2 hfits

/-! ## Calls -/

end MemoryPool

/-- What is asked of a pool. -/
inductive PoolCall where
  | request (slot elements : Nat)
  /-- Elements in place of those at the front of a slot. -/
  | write (slot : Nat) (source : TensorData)
deriving DecidableEq, Repr

namespace MemoryPool

variable {pool : MemoryPool} {slot s n : Nat}

def perform (pool : MemoryPool) : PoolCall → MemoryPool
  | .request slot elements => (pool.request slot elements).2
  | .write slot source =>
    match pool.slots[slot]? with
    | some data => pool.set slot (data.overwrite source)
    | none => pool

def performAll (pool : MemoryPool) (calls : List PoolCall) : MemoryPool := calls.foldl perform pool

/-- A call keeps the count right and shrinks no slot. -/
theorem Accounted.perform (h : pool.Accounted) (call : PoolCall) :
    (pool.perform call).Accounted ∧ (∀ s, pool.slotSize s ≤ (pool.perform call).slotSize s) ∧
      (pool.perform call).limit = pool.limit ∧ (pool.perform call).granted = pool.granted := by
  cases call with
  | request slot elements =>
    have hrequested : pool.Requested slot elements (pool.request slot elements) :=
      requested_request h.lt_wordCount
    refine ⟨hrequested.accounted h, fun _ ↦ hrequested.slotSize_le, ?_⟩
    simp only [MemoryPool.perform]
    generalize pool.request slot elements = answer at hrequested
    cases hrequested <;> exact ⟨rfl, rfl⟩
  | write slot source =>
    simp only [MemoryPool.perform]
    cases hslot : pool.slots[slot]? with
    | none => exact ⟨h, fun _ ↦ Nat.le_refl _, rfl, rfl⟩
    | some data =>
      have hheld : (pool.set slot (data.overwrite source)).heldBytes + data.byteSize =
          pool.heldBytes + (data.overwrite source).byteSize := heldBytes_set hslot
      rw [TensorData.byteSize, TensorData.byteSize, TensorData.dtype_overwrite,
        TensorData.size_overwrite] at hheld
      refine ⟨⟨?_, h.lt_wordCount, h.le_limit⟩,
        fun _ ↦ slotSize_le_set hslot (Nat.le_of_eq TensorData.size_overwrite.symm), rfl, rfl⟩
      have hcount := h.allocated_eq
      show pool.allocated = (pool.set slot (data.overwrite source)).heldBytes
      omega

/-- Along every sequence of calls the count stays right. -/
theorem Accounted.performAll (h : pool.Accounted) (calls : List PoolCall) :
    (pool.performAll calls).Accounted ∧ (pool.performAll calls).limit = pool.limit ∧
      (pool.performAll calls).granted = pool.granted := by
  induction calls generalizing pool with
  | nil => exact ⟨h, rfl, rfl⟩
  | cons call calls ih =>
    obtain ⟨hnext, _, hlimit, hgranted⟩ := h.perform call
    obtain ⟨hlast, hlimit', hgranted'⟩ := ih hnext
    exact ⟨hlast, hlimit'.trans hlimit, hgranted'.trans hgranted⟩

end MemoryPool

/-! ## Plans -/

/-- The bytes that a slot needs from the start; none without a known capacity. -/
def BufferSlot.bytes (slot : BufferSlot) : Nat := slot.capacity.getD 0 * slot.dtype.sizeInBytes

namespace MemoryPlan

/-- The bytes that a plan needs from the start. -/
def bytes (plan : MemoryPlan) : Nat := (plan.slots.map BufferSlot.bytes).sum

/-- Every slot is at its number. -/
def Numbered (plan : MemoryPlan) : Prop :=
  ∀ (s : Nat) (slot : BufferSlot), plan.slots[s]? = some slot → slot.id = s

/-- The plan of a graph has its slots at their numbers. -/
theorem numbered_ofGraph {graph : Graph} {streams : Nat} {plan : MemoryPlan}
    (h : ofGraph graph streams = .ok plan) : plan.Numbered := by
  obtain ⟨_, _, h⟩ := bind_eq_ok_iff.1 h
  obtain rfl := Except.ok.inj h
  obtain ⟨_, _, _, hassigned⟩ := SlotUse.exists_assigned
    (if 1 < streams then some (Reachability.ofGraph graph) else none) (AliasGroup.ofGraph graph)
  intro s slot hslot
  obtain ⟨use, huse, rfl⟩ := List.mem_map.1 (List.mem_of_getElem? hslot)
  rw [List.getElem?_map, Option.map_eq_some_iff] at hslot
  obtain ⟨other, hother, hsame⟩ := hslot
  rw [← hsame]
  exact hassigned.id_eq hother

/-- No two slots have the same number. -/
theorem Numbered.nodup {plan : MemoryPlan} (h : plan.Numbered) :
    (plan.slots.map BufferSlot.id).Nodup := by
  have hids : plan.slots.map BufferSlot.id = List.range plan.slots.length := by
    refine List.ext_getElem (by simp) fun s hs _ ↦ ?_
    rw [List.length_map] at hs
    rw [List.getElem_map, List.getElem_range, h s _ (List.getElem?_eq_getElem hs)]
  exact hids ▸ List.nodup_range

end MemoryPlan

namespace MemoryPool

variable {pool pool' : MemoryPool} {plan : MemoryPlan} {slot : BufferSlot}
  {slots : List BufferSlot} {limit : Option Nat} {granted : Nat}

theorem accounted_empty : (empty plan limit granted).Accounted := by
  refine ⟨?_, Nat.zero_lt_succ _, fun _ _ ↦ Nat.zero_le _⟩
  simp [empty, heldBytes, TensorData.byteSize, Function.comp_def]

/-- Making room in a planned slot is a request. -/
theorem allocateSlot_eq_ok_iff {capacity : Nat} (hcapacity : slot.capacity = some capacity)
    (hcount : pool.allocated < Size.wordCount) : pool.allocateSlot slot = .ok pool' ↔
      ∃ grew, pool.request slot.id capacity = (.ok grew, pool') := by
  rw [allocateSlot, hcapacity, request_eq hcount]
  simp only [map_eq_ok_iff]
  cases pool.ensureCapacity slot.id capacity with
  | error error => simp
  | ok answer => simp [Prod.ext_iff, eq_comm]

/-- Room for planned slots keeps the count right. -/
theorem Accounted.allocateSlots (h : pool.Accounted)
    (hslots : slots.foldlM allocateSlot pool = .ok pool') :
    pool'.Accounted ∧ pool'.limit = pool.limit ∧ pool'.granted = pool.granted := by
  induction slots generalizing pool with
  | nil =>
    obtain rfl := Except.ok.inj hslots
    exact ⟨h, rfl, rfl⟩
  | cons slot slots ih =>
    rw [List.foldlM_cons, bind_eq_ok_iff] at hslots
    obtain ⟨next, hnext, hslots⟩ := hslots
    have hstep : next.Accounted ∧ next.limit = pool.limit ∧ next.granted = pool.granted := by
      cases hcapacity : slot.capacity with
      | none =>
        rw [allocateSlot, hcapacity] at hnext
        obtain rfl := Except.ok.inj hnext
        exact ⟨h, rfl, rfl⟩
      | some capacity =>
        obtain ⟨grew, hrequest⟩ := (allocateSlot_eq_ok_iff hcapacity h.lt_wordCount).1 hnext
        obtain ⟨haccounted, _, hlimit, hgranted⟩ := h.perform (.request slot.id capacity)
        simp only [MemoryPool.perform, hrequest] at haccounted hlimit hgranted
        exact ⟨haccounted, hlimit, hgranted⟩
    obtain ⟨hlast, hlimit, hgranted⟩ := ih hstep.1 hslots
    exact ⟨hlast, hlimit.trans hstep.2.1, hgranted.trans hstep.2.2⟩

/-- The pool has the bytes of some slots left, none of which is too large. -/
structure Admits (pool : MemoryPool) (slots : List BufferSlot) : Prop where
  lt_wordCount : pool.allocated + (slots.map BufferSlot.bytes).sum < Size.wordCount
  le_limit : ∀ bytes ∈ pool.limit, pool.allocated + (slots.map BufferSlot.bytes).sum ≤ bytes
  le_maxBlock : ∀ slot ∈ slots, slot.bytes ≤ Size.maxBlock

/-- The pool after a planned slot got its room. -/
def withRoom (pool : MemoryPool) (slot : BufferSlot) : MemoryPool :=
  { pool.set slot.id ((TensorData.empty slot.dtype).pad (slot.capacity.getD 0)) with
    allocated := pool.allocated + slot.bytes }

/-- A slot without bytes gets no room. -/
theorem withRoom_of_capacity_eq_zero (hcapacity : slot.capacity.getD 0 = 0)
    (hempty : pool.slots[slot.id]? = some (.empty slot.dtype)) : pool.withRoom slot = pool := by
  obtain ⟨hlt, hget⟩ := List.getElem?_eq_some_iff.1 hempty
  have hpad : (TensorData.empty slot.dtype).pad 0 = .empty slot.dtype :=
    TensorData.pad_of_le (Nat.zero_le _)
  simp only [withRoom, BufferSlot.bytes, hcapacity, hpad, Nat.zero_mul, Nat.add_zero, set]
  rw [← hget, List.set_getElem_self]

/-- A slot whose capacity is zero or unknown is always admitted. -/
theorem Accounted.admits_of_capacity_eq_zero (h : pool.Accounted)
    (hcapacity : slot.capacity.getD 0 = 0) : pool.Admits [slot] := by
  have hbytes : slot.bytes = 0 := by rw [BufferSlot.bytes, hcapacity, Nat.zero_mul]
  refine ⟨?_, ?_, ?_⟩ <;> simp only [List.map_singleton, List.sum_singleton, hbytes,
    Nat.add_zero, List.mem_singleton, forall_eq, Nat.zero_le]
  · exact h.lt_wordCount
  · exact h.le_limit

/-- A pool admits an empty slot when the slot can grow to its capacity. -/
theorem fits_empty_iff {capacity : Nat} (hcapacity : slot.capacity = some capacity)
    (hgranted : Size.maxBlock ≤ pool.granted) :
    pool.Fits (.empty slot.dtype) capacity ↔ pool.Admits [slot] := by
  have hbytes : (capacity - (TensorData.empty slot.dtype).size) *
      (TensorData.empty slot.dtype).dtype.sizeInBytes = slot.bytes := by
    rw [TensorData.size_empty, TensorData.dtype_empty, BufferSlot.bytes, hcapacity,
      Option.getD_some, Nat.sub_zero]
  have hbytes' : capacity * (TensorData.empty slot.dtype).dtype.sizeInBytes = slot.bytes := by
    rw [← hbytes, TensorData.size_empty, Nat.sub_zero]
  constructor
  · rintro ⟨hword, hlimit, hblock, _⟩
    rw [hbytes] at hword hlimit
    rw [hbytes'] at hblock
    exact ⟨by simpa using hword, by simpa using hlimit, by simpa using hblock⟩
  · rintro ⟨hword, hlimit, hblock⟩
    simp only [List.map_singleton, List.sum_singleton, List.mem_singleton, forall_eq]
      at hword hlimit hblock
    exact ⟨hbytes ▸ hword, hbytes ▸ hlimit, hbytes' ▸ hblock,
      hbytes' ▸ Nat.le_trans hblock hgranted⟩

/-- A planned slot that is still empty gets its room when the pool admits it. -/
theorem allocateSlot_of_empty (haccounted : pool.Accounted)
    (hempty : pool.slots[slot.id]? = some (.empty slot.dtype))
    (hgranted : Size.maxBlock ≤ pool.granted) : pool.allocateSlot slot = .ok pool' ↔
      pool.Admits [slot] ∧ pool.withRoom slot = pool' := by
  cases hcapacity : slot.capacity with
  | none =>
    have hzero : slot.capacity.getD 0 = 0 := by rw [hcapacity, Option.getD_none]
    rw [withRoom_of_capacity_eq_zero hzero hempty,
      and_iff_right (haccounted.admits_of_capacity_eq_zero hzero)]
    simp [allocateSlot, hcapacity]
  | some capacity =>
    have hsame : ∀ {data : TensorData}, pool.slots[slot.id]? = some data →
        data = .empty slot.dtype := fun hslot ↦ Option.some.inj (hslot.symm.trans hempty)
    rw [allocateSlot_eq_ok_iff hcapacity haccounted.lt_wordCount]
    have hrequested : pool.Requested slot.id capacity (pool.request slot.id capacity) :=
      requested_request haccounted.lt_wordCount
    generalize pool.request slot.id capacity = answer at hrequested
    cases hrequested with
    | roomy hslot hroom =>
      obtain rfl := hsame hslot
      rw [TensorData.size_empty, Nat.le_zero] at hroom
      have hzero : slot.capacity.getD 0 = 0 := by rw [hcapacity, Option.getD_some, hroom]
      rw [withRoom_of_capacity_eq_zero hzero hempty,
        and_iff_right (haccounted.admits_of_capacity_eq_zero hzero)]
      simp
    | grown hslot hshort hfits =>
      obtain rfl := hsame hslot
      rw [and_iff_right ((fits_empty_iff hcapacity hgranted).1 hfits)]
      have hroom : pool.grown slot.id (.empty slot.dtype) capacity = pool.withRoom slot := by
        simp [grown, withRoom, hcapacity, BufferSlot.bytes]
      simp [hroom]
    | refused _ hwhy =>
      refine iff_of_false (by simp) fun ⟨hadmits, _⟩ ↦ ?_
      exact (hwhy _ hempty).2 ((fits_empty_iff hcapacity hgranted).2 hadmits)

/-- Slots are admitted together when one is, and the others are once it has its room. -/
theorem admits_cons_iff :
    pool.Admits (slot :: slots) ↔ pool.Admits [slot] ∧ (pool.withRoom slot).Admits slots := by
  have hallocated : (pool.withRoom slot).allocated = pool.allocated + slot.bytes := rfl
  have hlimit : (pool.withRoom slot).limit = pool.limit := rfl
  constructor
  · rintro ⟨hword, hbytes, hblock⟩
    rw [List.map_cons, List.sum_cons] at hword hbytes
    obtain ⟨hfirst, hothers⟩ := List.forall_mem_cons.1 hblock
    refine ⟨⟨?_, ?_, List.forall_mem_cons.2 ⟨hfirst, List.forall_mem_nil _⟩⟩, ⟨?_, ?_, hothers⟩⟩
    · rw [List.map_singleton, List.sum_singleton]
      omega
    · intro bytes hmem
      have hle := hbytes bytes hmem
      rw [List.map_singleton, List.sum_singleton]
      omega
    · rwa [hallocated, Nat.add_assoc]
    · rwa [hallocated, hlimit, Nat.add_assoc]
  · rintro ⟨⟨_, _, hfirst⟩, ⟨hword, hbytes, hothers⟩⟩
    rw [hallocated, Nat.add_assoc] at hword hbytes
    have hblock : ∀ other ∈ slot :: slots, other.bytes ≤ Size.maxBlock :=
      List.forall_mem_cons.2 ⟨hfirst slot (List.mem_singleton_self slot), hothers⟩
    refine ⟨?_, ?_, hblock⟩ <;> rwa [List.map_cons, List.sum_cons]

/-- Room for empty slots is found when the pool admits them together. -/
theorem exists_allocateSlots_iff (haccounted : pool.Accounted)
    (hempty : ∀ slot ∈ slots, pool.slots[slot.id]? = some (.empty slot.dtype))
    (hnodup : (slots.map BufferSlot.id).Nodup) (hgranted : Size.maxBlock ≤ pool.granted) :
    (∃ pool', slots.foldlM allocateSlot pool = .ok pool') ↔ pool.Admits slots := by
  induction slots generalizing pool with
  | nil =>
    refine iff_of_true ⟨pool, rfl⟩ ⟨?_, ?_, ?_⟩ <;> simp
    · exact haccounted.lt_wordCount
    · exact haccounted.le_limit
  | cons slot slots ih =>
    obtain ⟨hfirst, hothers⟩ := List.forall_mem_cons.1 hempty
    obtain ⟨hfresh, hnodup⟩ := List.nodup_cons.1 hnodup
    have hstep : ∀ next, pool.allocateSlot slot = .ok next ↔
        pool.Admits [slot] ∧ pool.withRoom slot = next :=
      fun _ ↦ allocateSlot_of_empty haccounted hfirst hgranted
    have hrest : pool.Admits [slot] →
        ((∃ pool', slots.foldlM allocateSlot (pool.withRoom slot) = .ok pool') ↔
          (pool.withRoom slot).Admits slots) := by
      intro hadmits
      have hone : [slot].foldlM allocateSlot pool = .ok (pool.withRoom slot) := by
        rw [List.foldlM_cons, (hstep _).2 ⟨hadmits, rfl⟩]
        rfl
      refine ih (haccounted.allocateSlots hone).1 (fun other hother ↦ ?_) hnodup hgranted
      have hne : slot.id ≠ other.id := fun hsame ↦
        hfresh (hsame ▸ List.mem_map_of_mem hother)
      simp only [withRoom, set]
      rw [List.getElem?_set_ne hne]
      exact hothers other hother
    rw [admits_cons_iff]
    constructor
    · rintro ⟨pool', h⟩
      rw [List.foldlM_cons, bind_eq_ok_iff] at h
      obtain ⟨next, hnext, h⟩ := h
      obtain ⟨hadmits, rfl⟩ := (hstep next).1 hnext
      exact ⟨hadmits, (hrest hadmits).1 ⟨pool', h⟩⟩
    · rintro ⟨hadmits, hothers⟩
      obtain ⟨pool', h⟩ := (hrest hadmits).2 hothers
      exact ⟨pool', by rw [List.foldlM_cons, (hstep _).2 ⟨hadmits, rfl⟩]; exact h⟩

/-- The slots of a plan start empty, each at its number. -/
theorem getElem?_empty (hnumbered : plan.Numbered) (hslot : slot ∈ plan.slots) :
    (empty plan limit granted).slots[slot.id]? = some (.empty slot.dtype) := by
  obtain ⟨s, hs⟩ := List.mem_iff_getElem?.1 hslot
  rw [hnumbered s slot hs, empty, List.getElem?_map, hs, Option.map_some]

/-- A plan has a pool when its bytes are within a word and the limit, and no slot is too large. -/
theorem exists_allocate_iff (hnumbered : plan.Numbered) (hgranted : Size.maxBlock ≤ granted) :
    (∃ pool, allocate plan limit granted = .ok pool) ↔ plan.bytes < Size.wordCount ∧
      (∀ bytes ∈ limit, plan.bytes ≤ bytes) ∧ ∀ slot ∈ plan.slots, slot.bytes ≤ Size.maxBlock := by
  have hallocated : (empty plan limit granted).allocated +
      (plan.slots.map BufferSlot.bytes).sum = plan.bytes := Nat.zero_add _
  rw [allocate, exists_allocateSlots_iff accounted_empty
    (fun _ ↦ getElem?_empty hnumbered) hnumbered.nodup hgranted]
  constructor
  · rintro ⟨hword, hlimit, hblock⟩
    rw [hallocated] at hword hlimit
    exact ⟨hword, hlimit, hblock⟩
  · rintro ⟨hword, hlimit, hblock⟩
    refine ⟨?_, ?_, hblock⟩ <;> rwa [hallocated]

/-- What a pool keeps to. -/
structure Orderly (pool : MemoryPool) (limit : Option Nat) : Prop where
  allocated_eq : pool.allocated = pool.heldBytes
  lt_wordCount : pool.allocated < Size.wordCount
  le_limit : ∀ bytes ∈ limit, pool.allocated ≤ bytes
  slotSize_le : ∀ call slot, pool.slotSize slot ≤ (pool.perform call).slotSize slot
  /-- Requests are answered as they should be. -/
  answers : ∀ slot n, pool.Answers slot n (pool.request slot n)
  /-- Charging and giving back is not seen from outside. -/
  request_eq : ∀ slot n, pool.request slot n = match pool.ensureCapacity slot n with
    | .ok (grew, pool') => (.ok grew, pool')
    | .error error => (.error error, pool)

/-- A pool whose count is right keeps to all of it. -/
theorem Accounted.orderly (h : pool.Accounted) : pool.Orderly pool.limit where
  allocated_eq := h.allocated_eq
  lt_wordCount := h.lt_wordCount
  le_limit := h.le_limit
  slotSize_le call := (h.perform call).2.1
  answers _ _ := (requested_request h.lt_wordCount).answers
  request_eq _ _ := request_eq h.lt_wordCount

/-- A plan has a pool exactly when its bytes are within a word and the limit and no slot is larger
than the largest block, given that the host grants every smaller one; and after every sequence of
requests and writes the pool counts its bytes rightly, within the limit, and grows its slots
without a loss, or not at all. -/
theorem pool_orderly {graph : Graph} {streams : Nat}
    (hplan : MemoryPlan.ofGraph graph streams = .ok plan) :
    (Size.maxBlock ≤ granted → ((∃ pool, allocate plan limit granted = .ok pool) ↔
      plan.bytes < Size.wordCount ∧ (∀ bytes ∈ limit, plan.bytes ≤ bytes) ∧
        ∀ slot ∈ plan.slots, slot.bytes ≤ Size.maxBlock)) ∧
    ∀ pool, allocate plan limit granted = .ok pool →
      ∀ calls, (pool.performAll calls).Orderly limit := by
  refine ⟨exists_allocate_iff (MemoryPlan.numbered_ofGraph hplan), fun pool hpool calls ↦ ?_⟩
  obtain ⟨haccounted, hlimit, _⟩ := accounted_empty.allocateSlots hpool
  obtain ⟨hlast, hkept, _⟩ := haccounted.performAll calls
  have hsame : (pool.performAll calls).limit = limit := hkept.trans hlimit
  exact hsame ▸ hlast.orderly

/-- Two numbers and a row of unknown length, both asked for. -/
def pairAndRow : Graph where
  nodes := [
    ⟨⟨0⟩, .parameter, [], [⟨⟨[.fixed 2]⟩, .i32, .rowMajor⟩]⟩,
    ⟨⟨1⟩, .parameter, [], [⟨⟨[.unbounded]⟩, .i32, .rowMajor⟩]⟩]
  outputs := [⟨0⟩, ⟨1⟩]
  valid := by rfl

/-- The pool of both: two numbers are there from the start, the row is still empty. -/
def pairAndRowPool : MemoryPool :=
  ⟨[.i32 #[0, 0], .i32 #[]], some 16, Size.maxBlock, 8⟩

/-- With sixteen bytes there is room for two numbers and a row of two, but not for a row of three;
every use of the pool is counted. -/
theorem pool_orderly_pairAndRow : ∃ plan, MemoryPlan.ofGraph pairAndRow 1 = .ok plan ∧
    plan.bytes = 8 ∧ allocate plan (some 16) Size.maxBlock = .ok pairAndRowPool ∧
    (pairAndRowPool.request 1 2).1 = .ok true ∧ (pairAndRowPool.request 1 3).1.isOk = false ∧
    ∀ calls, (pairAndRowPool.performAll calls).Orderly (some 16) := by
  have hplan : MemoryPlan.ofGraph pairAndRow 1 =
      .ok ((MemoryPlan.ofGraph pairAndRow 1).toOption.getD default) := rfl
  have hpool : allocate ((MemoryPlan.ofGraph pairAndRow 1).toOption.getD default) (some 16)
      Size.maxBlock = .ok pairAndRowPool := by decide +kernel
  exact ⟨_, hplan, by decide +kernel, hpool, by decide, by decide +kernel,
    (pool_orderly hplan).2 _ hpool⟩

end MemoryPool

end TensorEngine
