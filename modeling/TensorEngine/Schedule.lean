import TensorEngine.Graph

/-!
# Stream schedules

A schedule deals the places of a graph out to streams.  Each stream runs its queue in order, and a
place waits for those of its producers that other streams run.
-/

namespace TensorEngine

/-- The places of a graph on streams. -/
structure StreamSchedule where
  /-- The places of each stream, in the order in which it runs them. -/
  queues : List (List Nat)
  streamOf : List Nat
  /-- The producers on other streams that each place waits for, in ascending order. -/
  waits : List (List Nat)
deriving DecidableEq, Repr, Inhabited

namespace StreamSchedule

def empty (streams : Nat) : StreamSchedule := ⟨List.replicate streams [], [], []⟩

/-- The first stream whose last place is one of the producers; the operands are tried in
order. -/
def chained? (schedule : StreamSchedule) (producers : List Nat) : Option Nat :=
  producers.findSome? fun producer ↦ do
    let stream ← schedule.streamOf[producer]?
    let queue ← schedule.queues[stream]?
    if queue.getLast? = some producer then some stream else none

/-- The first of the shortest queues. -/
def leastLoaded (schedule : StreamSchedule) : Nat :=
  let shortest := (schedule.queues.map List.length).min?.getD 0
  schedule.queues.findIdx (·.length = shortest)

/-- The producers that run on another stream, each once and in ascending order. -/
def crossing (schedule : StreamSchedule) (stream : Nat) (producers : List Nat) : List Nat :=
  (List.range schedule.streamOf.length).filter fun place ↦
    place ∈ producers && schedule.streamOf[place]? ≠ some stream

/-- Schedules the next place: it continues the stream of a producer that ran last there, or goes
to the least loaded stream. -/
def push (schedule : StreamSchedule) (producers : List Nat) : StreamSchedule :=
  let stream := (schedule.chained? producers).getD schedule.leastLoaded
  { queues := schedule.queues.modify stream (· ++ [schedule.streamOf.length])
    streamOf := schedule.streamOf ++ [stream]
    waits := schedule.waits ++ [schedule.crossing stream producers] }

/-- The schedule of a graph; there is always at least one stream. -/
def ofGraph (graph : Graph) (streams : Nat) : StreamSchedule :=
  graph.nodes.foldl (fun schedule node ↦ schedule.push (graph.producers node))
    (empty (max streams 1))

def streamCount (schedule : StreamSchedule) : Nat := schedule.queues.length

/-- The number of waits. -/
def crossStreamEdges (schedule : StreamSchedule) : Nat :=
  schedule.waits.flatten.length

end StreamSchedule

end TensorEngine
