import TensorEngine.Schedule
import TensorEngine.Proofs.Graph.Order

/-!
# Schedules respect the graph

The schedule of a graph deals every place to one stream, and each stream runs its places in the
order of the graph.  An operand comes from an earlier place of the same stream or is waited for.
-/

namespace TensorEngine.StreamSchedule

def queueOf (schedule : StreamSchedule) (s : Nat) : List Nat := (schedule.queues[s]?).getD []

def waitsOf (schedule : StreamSchedule) (p : Nat) : List Nat := (schedule.waits[p]?).getD []

variable {graph : Graph} {schedule : StreamSchedule} {streams p q s k : Nat} {node : Node}
  {producers : List Nat}

/-- The first `k` places of a graph are dealt out. -/
structure Deals (schedule : StreamSchedule) (graph : Graph) (streams k : Nat) : Prop where
  length_queues : schedule.queues.length = max streams 1
  length_streamOf : schedule.streamOf.length = k
  length_waits : schedule.waits.length = k
  stream_lt : ∀ {p s : Nat}, schedule.streamOf[p]? = some s → s < max streams 1
  /-- A queue holds the places of its stream in the order of the graph. -/
  queue_eq : ∀ {s : Nat} {queue : List Nat}, schedule.queues[s]? = some queue →
    queue = (List.range k).filter (schedule.streamOf[·]? = some s)
  /-- A place waits for the operands that other streams compute. -/
  mem_waits_iff : ∀ {p q : Nat} {waits : List Nat}, schedule.waits[p]? = some waits →
    (q ∈ waits ↔ graph.Edge q p ∧ schedule.streamOf[q]? ≠ schedule.streamOf[p]?)

theorem deals_empty (graph : Graph) (streams : Nat) :
    (empty (max streams 1)).Deals graph streams 0 where
  length_queues := List.length_replicate
  length_streamOf := rfl
  length_waits := rfl
  stream_lt h := absurd h (Option.some_ne_none _).symm
  queue_eq h := by
    obtain ⟨hs, rfl⟩ := List.getElem?_eq_some_iff.1 h
    exact List.getElem_replicate _
  mem_waits_iff h := absurd h (Option.some_ne_none _).symm

/-- The least loaded stream is one of the streams. -/
theorem leastLoaded_lt (h : 0 < schedule.queues.length) :
    schedule.leastLoaded < schedule.queues.length := by
  have hne : schedule.queues.map List.length ≠ [] := by
    rw [ne_eq, List.map_eq_nil_iff]
    exact List.ne_nil_of_length_pos h
  obtain ⟨shortest, hshortest⟩ := Option.isSome_iff_exists.1 (List.isSome_min?_of_ne_nil hne)
  obtain ⟨queue, hmem, hlength⟩ := List.mem_map.1 (List.min?_mem hshortest)
  refine List.findIdx_lt_length_of_exists ⟨queue, hmem, ?_⟩
  rw [hshortest, Option.getD_some, hlength, decide_eq_true_eq]

/-- The stream that goes on with a producer is one of the streams. -/
theorem chained?_lt (h : schedule.chained? producers = some s) : s < schedule.queues.length := by
  obtain ⟨producer, _, hproducer⟩ := List.exists_of_findSome?_eq_some h
  simp only [Option.bind_eq_bind, Option.bind_eq_some_iff] at hproducer
  obtain ⟨stream, _, queue, hqueue, hlast⟩ := hproducer
  split at hlast
  · obtain rfl := Option.some.inj hlast
    exact (List.getElem?_eq_some_iff.1 hqueue).1
  · cases hlast

theorem mem_crossing_iff : q ∈ schedule.crossing s producers ↔
    q < schedule.streamOf.length ∧ q ∈ producers ∧ schedule.streamOf[q]? ≠ some s := by
  simp [crossing]

/-- What one more item at the end changes. -/
private theorem getElem?_snoc_eq_some {α : Type} {xs : List α} {x y : α} :
    (xs ++ [x])[p]? = some y ↔ xs[p]? = some y ∨ p = xs.length ∧ x = y := by
  rcases Nat.lt_trichotomy p xs.length with hlt | rfl | hgt
  · rw [List.getElem?_append_left hlt]
    exact ⟨.inl, fun h ↦ h.resolve_right fun ⟨heq, _⟩ ↦ Nat.ne_of_lt hlt heq⟩
  · rw [List.getElem?_concat_length, List.getElem?_eq_none (Nat.le_refl _), Option.some.injEq]
    simp
  · have hgt' : (xs ++ [x]).length ≤ p := by
      rw [List.length_append, List.length_singleton]
      exact hgt
    rw [List.getElem?_eq_none hgt', List.getElem?_eq_none (Nat.le_of_lt hgt)]
    simp [Nat.ne_of_gt hgt]

/-- The next place is dealt out like those in front of it. -/
theorem Deals.push (h : schedule.Deals graph streams k) (hnode : graph.nodes[k]? = some node) :
    (schedule.push (graph.producers node)).Deals graph streams (k + 1) := by
  have hstream : (schedule.chained? (graph.producers node)).getD schedule.leastLoaded <
      max streams 1 := by
    rw [← h.length_queues]
    cases hchained : schedule.chained? (graph.producers node) with
    | none => exact leastLoaded_lt (by rw [h.length_queues]; omega)
    | some s => exact chained?_lt hchained
  unfold StreamSchedule.push
  generalize (schedule.chained? (graph.producers node)).getD schedule.leastLoaded = stream
    at hstream
  have hfront : ∀ {p}, p < k → (schedule.streamOf ++ [stream])[p]? = schedule.streamOf[p]? :=
    fun hp ↦ List.getElem?_append_left (h.length_streamOf.symm ▸ hp)
  have hlast : (schedule.streamOf ++ [stream])[k]? = some stream :=
    getElem?_snoc_eq_some.2 (.inr ⟨h.length_streamOf.symm, rfl⟩)
  refine ⟨by rw [List.length_modify, h.length_queues], by simp [h.length_streamOf],
    by simp [h.length_waits], fun {p s} hp ↦ ?_, fun {s queue} hqueue ↦ ?_,
    fun {p q waits} hp ↦ ?_⟩
  · rcases getElem?_snoc_eq_some.1 hp with hp | ⟨_, rfl⟩
    · exact h.stream_lt hp
    · exact hstream
  · rw [List.getElem?_modify, Option.map_eq_map, Option.map_eq_some_iff] at hqueue
    obtain ⟨old, hold, rfl⟩ := hqueue
    have hsame : (List.range k).filter ((schedule.streamOf ++ [stream])[·]? = some s) = old := by
      rw [h.queue_eq hold]
      exact List.filter_congr fun p hp ↦ by rw [hfront (List.mem_range.1 hp)]
    rw [List.range_succ, List.filter_append, hsame, h.length_streamOf]
    split
    · rename_i heq
      rw [List.filter_singleton, hlast, heq]
      simp
    · rename_i hne
      rw [List.filter_singleton, hlast]
      simp [hne]
  · rcases getElem?_snoc_eq_some.1 hp with hp | ⟨rfl, rfl⟩
    · have hlt : p < k := h.length_waits ▸ (List.getElem?_eq_some_iff.1 hp).1
      rw [h.mem_waits_iff hp, hfront hlt]
      exact and_congr_right fun hedge ↦ by rw [hfront (Nat.lt_trans hedge.lt hlt)]
    · rw [h.length_waits, mem_crossing_iff, h.length_streamOf, ← Graph.edge_iff hnode, hlast]
      constructor
      · rintro ⟨hlt, hedge, hne⟩
        exact ⟨hedge, by rwa [hfront hlt]⟩
      · rintro ⟨hedge, hne⟩
        exact ⟨hedge.lt, hedge, by rwa [hfront hedge.lt] at hne⟩

/-- The schedule of a graph deals out all its places. -/
theorem deals_ofGraph (graph : Graph) (streams : Nat) :
    (ofGraph graph streams).Deals graph streams graph.size := by
  have hprefix : ∀ {nodes : List Node} {k : Nat} {schedule : StreamSchedule},
      graph.nodes.drop k = nodes → schedule.Deals graph streams k →
        (nodes.foldl (fun schedule node ↦ schedule.push (graph.producers node)) schedule).Deals
          graph streams (k + nodes.length) := by
    intro nodes
    induction nodes with
    | nil => exact fun _ h ↦ h
    | cons node nodes ih =>
      intro k schedule hdrop h
      obtain ⟨hnode, hdrop'⟩ := Graph.node_of_drop hdrop
      rw [List.foldl_cons, List.length_cons, Nat.add_comm nodes.length 1, ← Nat.add_assoc]
      exact ih hdrop' (h.push hnode)
  have hall := hprefix (List.drop_zero) (deals_empty graph streams)
  rwa [Nat.zero_add] at hall

/-! ## Queues and waits -/

section

variable (hdeals : schedule.Deals graph streams graph.size)

include hdeals

theorem Deals.exists_stream (hp : p < graph.size) : ∃ s, schedule.streamOf[p]? = some s :=
  ⟨_, List.getElem?_eq_getElem (hdeals.length_streamOf.symm ▸ hp)⟩

theorem Deals.lt_size (hs : schedule.streamOf[p]? = some s) : p < graph.size :=
  hdeals.length_streamOf ▸ (List.getElem?_eq_some_iff.1 hs).1

theorem Deals.queueOf_eq (hs : s < max streams 1) :
    schedule.queueOf s = (List.range graph.size).filter (schedule.streamOf[·]? = some s) := by
  have hqueue := List.getElem?_eq_getElem (hdeals.length_queues.symm ▸ hs)
  rw [queueOf, hqueue, Option.getD_some, hdeals.queue_eq hqueue]

/-- Every place is in the queue of its stream, and in no other one. -/
theorem Deals.mem_queueOf_iff : p ∈ schedule.queueOf s ↔ schedule.streamOf[p]? = some s := by
  by_cases hs : s < max streams 1
  · rw [hdeals.queueOf_eq hs, List.mem_filter, List.mem_range, decide_eq_true_eq]
    exact and_iff_right_of_imp hdeals.lt_size
  · have hnone : schedule.queues[s]? = none :=
      List.getElem?_eq_none (hdeals.length_queues ▸ Nat.le_of_not_lt hs)
    rw [queueOf, hnone]
    exact ⟨fun h ↦ absurd h List.not_mem_nil, fun h ↦ absurd (hdeals.stream_lt h) hs⟩

/-- A stream runs its places in the order of the graph. -/
theorem Deals.pairwise_queueOf (s : Nat) : (schedule.queueOf s).Pairwise (· < ·) := by
  by_cases hs : s < max streams 1
  · rw [hdeals.queueOf_eq hs]
    exact List.pairwise_lt_range.filter _
  · rw [queueOf, List.getElem?_eq_none (hdeals.length_queues ▸ Nat.le_of_not_lt hs)]
    exact .nil

/-- A place waits for the operands that other streams compute. -/
theorem Deals.mem_waitsOf_iff : q ∈ schedule.waitsOf p ↔
    graph.Edge q p ∧ schedule.streamOf[q]? ≠ schedule.streamOf[p]? := by
  unfold waitsOf
  cases hwaits : schedule.waits[p]? with
  | some waits => exact hdeals.mem_waits_iff hwaits
  | none =>
    rw [List.getElem?_eq_none_iff, hdeals.length_waits] at hwaits
    exact ⟨fun h ↦ absurd h List.not_mem_nil, fun h ↦ absurd h.1.lt_size (Nat.not_lt.2 hwaits)⟩

end

end TensorEngine.StreamSchedule
