import TensorEngine.Size

/-!
# Profiles and sessions

Named counters of events and of scopes that were entered.  Counters only grow, so the traffic of
a piece of work is the difference of two readings.  A session is what outlives a single program: the
environment of the implementations, the counters and the memory of the host.
-/

namespace TensorEngine

structure Tally where
  /-- The counters that are not zero, in ascending order of their names. -/
  entries : List (String × Nat) := []
deriving DecidableEq, Repr, Inhabited

namespace Tally

/-- Counts one more occurrence in ascending entries. -/
def bumpEntries (name : String) : List (String × Nat) → List (String × Nat)
  | [] => [(name, 1)]
  | (other, count) :: rest =>
    if name = other then (other, count + 1) :: rest
    else if name < other then (name, 1) :: (other, count) :: rest
    else (other, count) :: bumpEntries name rest

def bump (tally : Tally) (name : String) : Tally := ⟨bumpEntries name tally.entries⟩

def count (tally : Tally) (name : String) : Nat := (tally.entries.lookup name).getD 0

end Tally

/-- Counters of one process. -/
structure Profile where
  /-- Events such as hits and misses of a cache. -/
  events : Tally := {}
  /-- Scopes that were entered and left. -/
  scopes : Tally := {}
deriving DecidableEq, Repr, Inhabited

namespace Profile

def event (profile : Profile) (name : String) : Profile :=
  { profile with events := profile.events.bump name }

def scope (profile : Profile) (name : String) : Profile :=
  { profile with scopes := profile.scopes.bump name }

def cacheHit : String := "primrt.impl_cache_hit"

def cacheMiss : String := "primrt.impl_cache_miss"

def artifactHit : String := "primrt.artifact_hit"

def artifactMiss : String := "primrt.artifact_miss"

def artifactRejected : String := "primrt.artifact_rejected"

def finalizeScope : String := "primrt.finalize"

def buildScope : String := "primrt.build"

def eventNames : List String := [artifactHit, artifactMiss, artifactRejected, cacheHit, cacheMiss]

def scopeNames : List String := [buildScope, finalizeScope]

end Profile

/-- The surroundings in which programs are built and run. -/
structure Session (ω : Type) where
  environment : ω
  profile : Profile := {}
  /-- The bytes that the host grants to one block of memory. -/
  granted : Nat := Size.hostBlock
deriving DecidableEq, Repr, Inhabited

namespace Session

variable {ω : Type}

def event (session : Session ω) (name : String) : Session ω :=
  { session with profile := session.profile.event name }

def scope (session : Session ω) (name : String) : Session ω :=
  { session with profile := session.profile.scope name }

def withEnvironment (session : Session ω) (environment : ω) : Session ω :=
  { session with environment }

end Session

end TensorEngine
