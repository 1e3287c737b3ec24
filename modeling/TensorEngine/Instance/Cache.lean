import TensorEngine.Registry

/-!
# The cache of finalized implementations

Finalized implementations by node signature and concrete extents.  The cache holds a limited
number of entries; using an entry moves it to the front, and the entry at the back gives way.
-/

namespace TensorEngine

/-- An implementation with the descriptor that created it. -/
structure BoundImplementation (ι : Type) where
  descriptor : DescriptorId
  implementation : ι
  /-- Whether the layouts are taken only after a conversion. -/
  requiresConversion : Bool
deriving DecidableEq, Repr, Inhabited

structure FinalizedImplementation (ι : Type) where
  bound : BoundImplementation ι
  form : FinalizedForm
deriving DecidableEq, Repr, Inhabited

/-- A node signature and concrete extents. -/
abbrev CacheKey := UInt64 × ConcreteShapes

/-- Finalized implementations, the last used first. -/
structure ImplementationCache (ι : Type) where
  capacity : Nat
  /-- The entries, each key at most once. -/
  entries : List (CacheKey × FinalizedImplementation ι)
  size_le : entries.length ≤ capacity

namespace ImplementationCache

variable {ι : Type}

/-- An empty cache; there is none for no entries. -/
def ofCapacity? (capacity : Nat) : Option (ImplementationCache ι) :=
  if capacity = 0 then none else some ⟨capacity, [], Nat.zero_le _⟩

def size (cache : ImplementationCache ι) : Nat := cache.entries.length

/-- Puts an entry to the front in place of one with the same key. -/
def put (cache : ImplementationCache ι) (key : CacheKey) (entry : FinalizedImplementation ι) :
    ImplementationCache ι :=
  { cache with
    entries := ((key, entry) :: cache.entries.filter (·.1 ≠ key)).take cache.capacity
    size_le := List.length_take_le _ _ }

def find? (cache : ImplementationCache ι) (key : CacheKey) :
    Option (FinalizedImplementation ι) :=
  cache.entries.lookup key

/-- The entry for a key, which counts as a use of it. -/
def get (cache : ImplementationCache ι) (key : CacheKey) :
    Option (FinalizedImplementation ι) × ImplementationCache ι :=
  match cache.find? key with
  | some entry => (some entry, cache.put key entry)
  | none => (none, cache)

end ImplementationCache

end TensorEngine
