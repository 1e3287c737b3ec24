import TensorEngine.Proofs.Stream.Interleaving
import Mathlib.Data.List.Sort

/-!
# Schedules never lock up

The queues of a schedule share out the places of the graph.  Every operand of a place is computed
earlier in the same queue or is waited for.  However far the streams are, some stream has the
operands of its next place: the smallest place that was not completed is the next one of its
stream.
-/

namespace TensorEngine.StreamSchedule

variable {graph : Graph} {schedule : StreamSchedule} {streams p q s : Nat} {counts : Nat → Nat}

/-! ## Places in ascending order -/

/-- No place is in the queues of two streams. -/
theorem Deals.nodup_flatten (hdeals : schedule.Deals graph streams graph.size) :
    schedule.queues.flatten.Nodup := by
  have hqueueOf : ∀ {s : Nat} (hs : s < schedule.queues.length),
      schedule.queues[s] = schedule.queueOf s := fun hs ↦ by
    rw [queueOf, List.getElem?_eq_getElem hs, Option.getD_some]
  rw [List.nodup_flatten]
  refine ⟨fun queue hqueue ↦ ?_, List.pairwise_iff_getElem.2 fun s t hs ht hlt p hps hpt ↦ ?_⟩
  · obtain ⟨s, hs, rfl⟩ := List.getElem_of_mem hqueue
    rw [hqueueOf hs]
    exact (hdeals.pairwise_queueOf s).imp Nat.ne_of_lt
  · rw [hqueueOf hs, hdeals.mem_queueOf_iff] at hps
    rw [hqueueOf ht, hdeals.mem_queueOf_iff, hps] at hpt
    exact Nat.ne_of_lt hlt (Option.some.inj hpt)

/-- The queues share out the places of the graph. -/
theorem Deals.perm_flatten (hdeals : schedule.Deals graph streams graph.size) :
    schedule.queues.flatten.Perm (List.range graph.size) := by
  refine (List.perm_ext_iff_of_nodup hdeals.nodup_flatten List.nodup_range).2 fun p ↦ ?_
  rw [List.mem_flatten, List.mem_range]
  constructor
  · rintro ⟨queue, hqueue, hp⟩
    obtain ⟨s, hs⟩ := List.mem_iff_getElem?.1 hqueue
    have hmem : p ∈ schedule.queueOf s := by rwa [queueOf, hs, Option.getD_some]
    exact hdeals.lt_size (hdeals.mem_queueOf_iff.1 hmem)
  · intro hp
    obtain ⟨s, hs⟩ := hdeals.exists_stream hp
    have hmem := hdeals.mem_queueOf_iff.2 hs
    have hqueue := List.getElem?_eq_getElem (hdeals.length_queues.symm ▸ hdeals.stream_lt hs)
    rw [queueOf, hqueue, Option.getD_some] at hmem
    exact ⟨_, List.mem_of_getElem? hqueue, hmem⟩

theorem pairwise_crossing (schedule : StreamSchedule) (s : Nat) (producers : List Nat) :
    (schedule.crossing s producers).Pairwise (· < ·) :=
  List.pairwise_lt_range.filter _

/-- A place waits for places in ascending order. -/
theorem pairwise_waits_ofGraph (graph : Graph) (streams : Nat) :
    ∀ waits ∈ (ofGraph graph streams).waits, waits.Pairwise (· < ·) := by
  unfold ofGraph
  generalize graph.nodes = nodes
  have hempty : ∀ waits ∈ (empty (max streams 1)).waits, waits.Pairwise (· < ·) := nofun
  generalize empty (max streams 1) = schedule at hempty
  induction nodes generalizing schedule with
  | nil => exact hempty
  | cons node nodes ih =>
    refine ih _ fun waits hwaits ↦ ?_
    rcases List.mem_append.1 hwaits with hwaits | hwaits
    · exact hempty waits hwaits
    · obtain rfl := List.mem_singleton.1 hwaits
      exact pairwise_crossing ..

theorem pairwise_waitsOf_ofGraph (graph : Graph) (streams p : Nat) :
    ((ofGraph graph streams).waitsOf p).Pairwise (· < ·) := by
  unfold waitsOf
  cases hwaits : (ofGraph graph streams).waits[p]? with
  | none => exact .nil
  | some waits => exact pairwise_waits_ofGraph graph streams waits (List.mem_of_getElem? hwaits)

/-! ## Operands are covered -/

/-- An operand comes earlier in the same queue, or it is waited for. -/
theorem Deals.covered (hdeals : schedule.Deals graph streams graph.size) (hedge : graph.Edge q p)
    (hs : schedule.streamOf[p]? = some s) :
    [q, p].Sublist (schedule.queueOf s) ∨ q ∈ schedule.waitsOf p := by
  by_cases hsame : schedule.streamOf[q]? = some s
  · have hpair : [q, p].Pairwise (· < ·) := List.pairwise_pair.2 hedge.lt
    have hsub : [q, p] ⊆ schedule.queueOf s :=
      List.cons_subset.2 ⟨hdeals.mem_queueOf_iff.2 hsame,
        List.cons_subset.2 ⟨hdeals.mem_queueOf_iff.2 hs, List.nil_subset _⟩⟩
    exact .inl (List.sublist_of_subperm_of_pairwise
      (List.subperm_of_subset (hpair.imp Nat.ne_of_lt) hsub) hpair (hdeals.pairwise_queueOf s))
  · exact .inr (hdeals.mem_waitsOf_iff.2 ⟨hedge, by rwa [hs]⟩)

/-! ## Some stream can go on -/

/-- A place is completed when each stream has completed this many places of its queue. -/
def Completed (schedule : StreamSchedule) (counts : Nat → Nat) (p : Nat) : Prop :=
  ∃ s, p ∈ (schedule.queueOf s).take (counts s)

/-- The streams can be this far: no place was completed before the places that it waits for. -/
def Attainable (schedule : StreamSchedule) (counts : Nat → Nat) : Prop :=
  ∀ p, schedule.Completed counts p → ∀ q ∈ schedule.waitsOf p, schedule.Completed counts q

/-- A stream that has not completed a place has a next one, which is not behind it. -/
theorem Deals.exists_next (hdeals : schedule.Deals graph streams graph.size)
    (hs : schedule.streamOf[p]? = some s) (hp : ¬schedule.Completed counts p) :
    ∃ next ≤ p, (schedule.queueOf s)[counts s]? = some next := by
  have hsplit := List.take_append_drop (counts s) (schedule.queueOf s)
  have hdrop : p ∈ (schedule.queueOf s).drop (counts s) := by
    have hmem := hdeals.mem_queueOf_iff.2 hs
    rw [← hsplit, List.mem_append] at hmem
    exact hmem.resolve_left fun htake ↦ hp ⟨s, htake⟩
  have hsorted := (hdeals.pairwise_queueOf s).sublist (List.drop_sublist (counts s) _)
  rw [← List.head?_drop]
  cases hqueue : (schedule.queueOf s).drop (counts s) with
  | nil => exact absurd (hqueue ▸ hdrop) List.not_mem_nil
  | cons next rest =>
    rw [hqueue] at hdrop hsorted
    refine ⟨next, ?_, rfl⟩
    rcases List.mem_cons.1 hdrop with rfl | hrest
    · exact Nat.le_refl _
    · exact Nat.le_of_lt (List.rel_of_pairwise_cons hsorted hrest)

/-- When not all places were completed, some stream has all operands of its next place. -/
theorem Deals.exists_ready (hdeals : schedule.Deals graph streams graph.size)
    (hrest : ∃ p < graph.size, ¬schedule.Completed counts p) :
    ∃ s next, (schedule.queueOf s)[counts s]? = some next ∧
      ∀ q, graph.Edge q next → schedule.Completed counts q := by
  classical
  -- No stream is past the smallest place that was not completed, so it is the next of its own.
  obtain ⟨hlt, hopen⟩ := Nat.find_spec hrest
  have hfront : ∀ q < Nat.find hrest, schedule.Completed counts q := fun q hq ↦
    not_not.1 fun hnot ↦ Nat.find_min hrest hq ⟨Nat.lt_trans hq hlt, hnot⟩
  obtain ⟨s, hs⟩ := hdeals.exists_stream hlt
  obtain ⟨next, hle, hnext⟩ := hdeals.exists_next hs hopen
  exact ⟨s, next, hnext, fun q hedge ↦ hfront q (Nat.lt_of_lt_of_le hedge.lt hle)⟩

/-- A stream with the operands of its next place completes it. -/
theorem Deals.attainable_update (hdeals : schedule.Deals graph streams graph.size)
    (h : schedule.Attainable counts) (hnext : (schedule.queueOf s)[counts s]? = some p)
    (hready : ∀ q, graph.Edge q p → schedule.Completed counts q) :
    schedule.Attainable (Function.update counts s (counts s + 1)) := by
  have hmono : ∀ q, schedule.Completed counts q →
      schedule.Completed (Function.update counts s (counts s + 1)) q := by
    rintro q ⟨t, ht⟩
    refine ⟨t, (List.take_subset_take_left _ ?_) ht⟩
    rw [Function.update_apply]
    split
    · rename_i heq
      exact heq ▸ Nat.le_succ _
    · exact Nat.le_refl _
  rintro p' ⟨t, ht⟩ q hq
  rw [Function.update_apply] at ht
  split at ht
  · rename_i heq
    subst heq
    rw [List.take_add_one, hnext, Option.toList_some, List.mem_append, List.mem_singleton] at ht
    rcases ht with ht | rfl
    · exact hmono q (h p' ⟨t, ht⟩ q hq)
    · exact hmono q (hready q (hdeals.mem_waitsOf_iff.1 hq).1)
  · exact hmono q (h p' ⟨t, ht⟩ q hq)

/-- A schedule deals out a graph completely, and the streams never wait for each other. -/
structure Sound (schedule : StreamSchedule) (graph : Graph) (streams : Nat) : Prop where
  length_queues : schedule.queues.length = max streams 1
  /-- The queues share out the places. -/
  perm : schedule.queues.flatten.Perm (List.range graph.size)
  /-- A stream runs its places in the order of the graph. -/
  ascending_queue : ∀ s, (schedule.queueOf s).Pairwise (· < ·)
  mem_queue_iff : ∀ s p, p ∈ schedule.queueOf s ↔ schedule.streamOf[p]? = some s
  ascending_waits : ∀ p, (schedule.waitsOf p).Pairwise (· < ·)
  mem_waits_iff : ∀ p q, q ∈ schedule.waitsOf p ↔
    graph.Edge q p ∧ schedule.streamOf[q]? ≠ schedule.streamOf[p]?
  /-- An operand comes earlier in the same queue, or it is waited for. -/
  covered : ∀ p q, graph.Edge q p →
    (∃ s, schedule.streamOf[p]? = some s ∧ [q, p].Sublist (schedule.queueOf s)) ∨
      q ∈ schedule.waitsOf p
  /-- As long as places are left, some stream can complete its next one. -/
  progress : ∀ counts, schedule.Attainable counts →
    (∃ p < graph.size, ¬schedule.Completed counts p) →
      ∃ s next, (schedule.queueOf s)[counts s]? = some next ∧
        (∀ q, graph.Edge q next → schedule.Completed counts q) ∧
        schedule.Attainable (Function.update counts s (counts s + 1))

/-- The schedule of a graph is complete, and its streams never lock up. -/
theorem sound_ofGraph (graph : Graph) (streams : Nat) :
    (ofGraph graph streams).Sound graph streams := by
  have hdeals := deals_ofGraph graph streams
  refine ⟨hdeals.length_queues, hdeals.perm_flatten, hdeals.pairwise_queueOf,
    fun _ _ ↦ hdeals.mem_queueOf_iff, pairwise_waitsOf_ofGraph graph streams,
    fun _ _ ↦ hdeals.mem_waitsOf_iff, fun p q hedge ↦ ?_, fun counts hattainable hrest ↦ ?_⟩
  · obtain ⟨s, hs⟩ := hdeals.exists_stream hedge.lt_size
    exact (hdeals.covered hedge hs).imp_left fun hsub ↦ ⟨s, hs, hsub⟩
  · obtain ⟨s, next, hnext, hready⟩ := hdeals.exists_ready hrest
    exact ⟨s, next, hnext, hready, hdeals.attainable_update hattainable hnext hready⟩

end TensorEngine.StreamSchedule
