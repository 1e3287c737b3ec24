/-!
# Configuration

How programs are built and run.
-/

namespace TensorEngine

/-- The settings of a program. -/
structure RuntimeConfig where
  /-- The number of streams; there is always at least one. -/
  streams : Nat := 1
  /-- The entries of a program's cache of implementations; none disables it. -/
  implCacheCapacity : Nat := 64
  /-- Whether artifacts are looked up and stored. -/
  artifactCache : Bool := true
  artifactDir : Option String := none
  /-- The bytes that a memory pool may hold. -/
  maxPoolBytes : Option Nat := none
deriving DecidableEq, Repr, Inhabited

namespace RuntimeConfig

/-- The same settings with another number of streams. -/
def withStreams (config : RuntimeConfig) (streams : Nat) : RuntimeConfig :=
  { config with streams := max streams 1 }

/-- The same settings with a limit for the memory pool. -/
def withMaxPoolBytes (config : RuntimeConfig) (limit : Nat) : RuntimeConfig :=
  { config with maxPoolBytes := some limit }

/-- The same settings with another number of cached implementations. -/
def withImplCacheCapacity (config : RuntimeConfig) (capacity : Nat) : RuntimeConfig :=
  { config with implCacheCapacity := capacity }

def streamCount (config : RuntimeConfig) : Nat := max config.streams 1

end RuntimeConfig

end TensorEngine
