import TensorEngine.Error
import TensorEngine.Memory.Plan

/-!
# The memory pool

The slots of a plan with their elements.  A slot only grows, and growth is charged in bytes
against an optional limit before the host is asked for it; a refused request changes nothing.
-/

namespace TensorEngine

/-- Why memory was refused. -/
inductive AllocationCause where
  /-- The pool would hold more than it may. -/
  | limit (held : Nat) (limit : Option Nat)
  | growth (error : TensorData.GrowthError)
  | noSlot (count : Nat)
deriving DecidableEq, Repr

structure AllocationError where
  /-- The bytes that the slot would need. -/
  requested : Nat
  slot : Nat
  cause : AllocationCause
deriving DecidableEq, Repr

namespace AllocationError

def reason (error : AllocationError) : String :=
  match error.cause with
  | .limit held limit =>
    let limit := match limit with
      | some bytes => toString bytes
      | none => "unbounded"
    s!"pool holds {held} bytes, limit is {limit} bytes"
  | .growth error => error.message
  | .noSlot count => s!"pool has {count} slots"

/-- The request as a failure of the engine. -/
def toRuntime (error : AllocationError) : RuntimeError :=
  .allocationFailure error.requested error.slot error.reason

end AllocationError

structure MemoryPool where
  slots : List TensorData
  limit : Option Nat
  /-- The bytes that the host grants to one slot. -/
  granted : Nat
  allocated : Nat
deriving DecidableEq, Repr, Inhabited

namespace MemoryPool

def size (pool : MemoryPool) : Nat := pool.slots.length

/-- The number of elements in a slot; none are in a slot that does not exist. -/
def slotSize (pool : MemoryPool) (slot : Nat) : Nat :=
  (pool.slots[slot]?.map TensorData.size).getD 0

def read (pool : MemoryPool) (slot : Nat) : Except AllocationError TensorData :=
  match pool.slots[slot]? with
  | some data => .ok data
  | none => .error ⟨0, slot, .noSlot pool.size⟩

def set (pool : MemoryPool) (slot : Nat) (data : TensorData) : MemoryPool :=
  { pool with slots := pool.slots.set slot data }

/-- The bytes held after charging some more, when a limit and the words allow it. -/
def charge? (pool : MemoryPool) (additional : Nat) : Option Nat := do
  let total ← Size.add? pool.allocated additional
  match pool.limit with
  | some limit => if limit < total then none else return total
  | none => return total

/-- Makes room for `elements` elements in a slot; answers whether the slot had to grow. -/
def ensureCapacity (pool : MemoryPool) (slot elements : Nat) :
    Except AllocationError (Bool × MemoryPool) := do
  let data ← pool.read slot
  if elements ≤ data.size then return (false, pool)
  let requested := Size.saturatingMul elements data.dtype.sizeInBytes
  let additional := Size.saturatingMul (elements - data.size) data.dtype.sizeInBytes
  let some allocated := pool.charge? additional
    | throw ⟨requested, slot, .limit pool.allocated pool.limit⟩
  let grown ← (data.grow elements pool.granted).mapError fun error ↦
    ⟨requested, slot, .growth error⟩
  return (true, { pool.set slot grown with allocated })

def empty (plan : MemoryPlan) (limit : Option Nat) (granted : Nat) : MemoryPool :=
  ⟨plan.slots.map fun slot ↦ .empty slot.dtype, limit, granted, 0⟩

/-- Makes room in a planned slot; a slot without known capacity stays as it is. -/
def allocateSlot (pool : MemoryPool) (slot : BufferSlot) : Except AllocationError MemoryPool :=
  match slot.capacity with
  | some capacity => Prod.snd <$> pool.ensureCapacity slot.id capacity
  | none => .ok pool

/-- The pool of a plan.  Every slot with known capacity gets it at once; the others start
empty. -/
def allocate (plan : MemoryPlan) (limit : Option Nat) (granted : Nat) :
    Except AllocationError MemoryPool :=
  plan.slots.foldlM allocateSlot (empty plan limit granted)

end MemoryPool

end TensorEngine
