import TensorEngine.Proofs.Execution.Orders
import TensorEngine.Proofs.Stream.Schedule
import Mathlib.Data.List.Nodup

/-!
# Orders of streams

At any time the streams have run the first places of their queues, and no place before those that
it waits for.  Such a set of places is closed under operands, and on one stream also under all
places in front; that is all that a visit to the next place asks of the visits before it.
-/

namespace TensorEngine.StreamSchedule

open MemoryPlan

variable {graph : Graph} {schedule : StreamSchedule} {plan : MemoryPlan} {streams p q s : Nat}
  {done order : List Nat}

/-! ## Places that were run -/

/-- The streams may have run just these places. -/
structure Segment (schedule : StreamSchedule) (graph : Graph) (done : List Nat) : Prop where
  lt_size : ∀ {p : Nat}, p ∈ done → p < graph.size
  /-- Of each stream, the first places were run. -/
  queue : ∀ {p q s : Nat}, schedule.streamOf[p]? = some s → schedule.streamOf[q]? = some s →
    q < p → p ∈ done → q ∈ done
  /-- What a place waits for was run before it. -/
  waits : ∀ {p q : Nat}, q ∈ schedule.waitsOf p → p ∈ done → q ∈ done

theorem segment_nil (schedule : StreamSchedule) (graph : Graph) : schedule.Segment graph [] :=
  ⟨fun h ↦ absurd h List.not_mem_nil, fun _ _ _ h ↦ absurd h List.not_mem_nil,
    fun _ h ↦ absurd h List.not_mem_nil⟩

/-- A stream may run its next place after those that the place waits for. -/
theorem Segment.cons (h : schedule.Segment graph done) (hp : p < graph.size)
    (hqueue : ∀ q s, schedule.streamOf[p]? = some s → schedule.streamOf[q]? = some s → q < p →
      q ∈ done)
    (hwaits : ∀ q ∈ schedule.waitsOf p, q ∈ done) :
    schedule.Segment graph (p :: done) where
  lt_size hq := by
    rcases List.mem_cons.1 hq with rfl | hq
    · exact hp
    · exact h.lt_size hq
  queue hp' hq' hlt hmem := by
    rcases List.mem_cons.1 hmem with rfl | hmem
    · exact List.mem_cons_of_mem _ (hqueue _ _ hp' hq' hlt)
    · exact List.mem_cons_of_mem _ (h.queue hp' hq' hlt hmem)
  waits hq hmem := by
    rcases List.mem_cons.1 hmem with rfl | hmem
    · exact List.mem_cons_of_mem _ (hwaits _ hq)
    · exact List.mem_cons_of_mem _ (h.waits hq hmem)

variable (hdeals : schedule.Deals graph streams graph.size)

include hdeals

/-- The operands of places that were run were run. -/
theorem Deals.mem_of_edge (h : schedule.Segment graph done) (hedge : graph.Edge q p)
    (hp : p ∈ done) : q ∈ done := by
  obtain ⟨s, hs⟩ := hdeals.exists_stream (h.lt_size hp)
  by_cases hsame : schedule.streamOf[q]? = schedule.streamOf[p]?
  · exact h.queue hs (hsame.trans hs) hedge.lt hp
  · exact h.waits (hdeals.mem_waitsOf_iff.2 ⟨hedge, hsame⟩) hp

/-- The operands of the next place were run. -/
theorem Deals.mem_of_edge_next (h : schedule.Segment graph (p :: done)) (hedge : graph.Edge q p) :
    q ∈ done :=
  (List.mem_cons.1 (hdeals.mem_of_edge h hedge (List.mem_cons_self ..))).resolve_left
    (Nat.ne_of_lt hedge.lt)

/-- The slots of the places that were run are handed over as planned. -/
theorem Deals.closed (hsafe : plan.Safe graph streams) (h : schedule.Segment graph done) :
    plan.Closed graph done := by
  by_cases hstreams : 1 < streams
  · exact closed_of_edges hsafe hstreams fun _ _ hp hedge ↦ hdeals.mem_of_edge h hedge hp
  · have hzero : ∀ {p : Nat}, p < graph.size → schedule.streamOf[p]? = some 0 := by
      intro p hp
      obtain ⟨s, hs⟩ := hdeals.exists_stream hp
      have hlt := hdeals.stream_lt hs
      obtain rfl : s = 0 := by omega
      exact hs
    refine closed_of_segment hsafe fun p q hq hlt ↦ ?_
    have hsize := h.lt_size hq
    exact h.queue (hzero hsize) (hzero (Nat.lt_trans hlt hsize)) hlt hq

omit hdeals

/-! ## Whole orders -/

/-- The streams may run all places in this order. -/
structure Allows (schedule : StreamSchedule) (graph : Graph) (order : List Nat) : Prop where
  perm : order.Perm (List.range graph.size)
  queue : ∀ queue ∈ schedule.queues, queue.Sublist order
  /-- A place is run after those that it waits for. -/
  waits : ∀ p ∈ order, ∀ q ∈ schedule.waitsOf p, [q, p].Sublist order

instance (schedule : StreamSchedule) (graph : Graph) (order : List Nat) :
    Decidable (schedule.Allows graph order) :=
  decidable_of_iff (order.Perm (List.range graph.size) ∧
    (∀ queue ∈ schedule.queues, queue.Sublist order) ∧
    ∀ p ∈ order, ∀ q ∈ schedule.waitsOf p, [q, p].Sublist order)
    ⟨fun h ↦ ⟨h.1, h.2.1, h.2.2⟩, fun h ↦ ⟨h.perm, h.queue, h.waits⟩⟩

theorem Allows.nodup (h : schedule.Allows graph order) : order.Nodup :=
  h.perm.nodup_iff.2 List.nodup_range

theorem Allows.mem_iff (h : schedule.Allows graph order) : p ∈ order ↔ p < graph.size := by
  rw [h.perm.mem_iff, List.mem_range]

theorem Allows.queueOf (h : schedule.Allows graph order) (s : Nat) :
    (schedule.queueOf s).Sublist order := by
  unfold StreamSchedule.queueOf
  cases hqueue : schedule.queues[s]? with
  | none => exact List.nil_sublist order
  | some queue => exact h.queue queue (List.mem_of_getElem? hqueue)

/-- The first places of an order are those that the streams may have run. -/
theorem Allows.segment (h : schedule.Allows graph order)
    (hdeals : schedule.Deals graph streams graph.size) {pre post : List Nat}
    (horder : order = pre ++ post) (hdone : ∀ p, p ∈ done ↔ p ∈ pre) :
    schedule.Segment graph done := by
  have hnodup := h.nodup
  rw [horder] at hnodup
  have hdisjoint : ∀ {p}, p ∈ pre → p ∉ post := fun hp hp' ↦
    List.disjoint_of_nodup_append hnodup hp hp'
  refine ⟨fun {p} hp ↦ ?_, fun {p q s} hp hq hlt hmem ↦ ?_, fun {p q} hq hmem ↦ ?_⟩
  · exact h.mem_iff.1 (horder ▸ List.mem_append_left _ ((hdone p).1 hp))
  · rw [hdone] at hmem ⊢
    have hsub := h.queueOf s
    have hsorted := hdeals.pairwise_queueOf s
    have hp' := hdeals.mem_queueOf_iff.2 hp
    have hq' := hdeals.mem_queueOf_iff.2 hq
    rw [horder, List.sublist_append_iff] at hsub
    obtain ⟨front, back, heq, hfront, hback⟩ := hsub
    rw [heq] at hp' hq' hsorted
    rcases List.mem_append.1 hq' with hq' | hq'
    · exact hfront.subset hq'
    · rcases List.mem_append.1 hp' with hp' | hp'
      · exact absurd hlt (Nat.lt_asymm ((List.pairwise_append.1 hsorted).2.2 p hp' q hq'))
      · exact absurd (hback.subset hp') (hdisjoint hmem)
  · rw [hdone] at hmem ⊢
    have hsub := h.waits p (horder ▸ List.mem_append_left _ hmem) q hq
    rw [horder, List.sublist_append_iff] at hsub
    obtain ⟨front, back, heq, hfront, hback⟩ := hsub
    cases front with
    | nil =>
      rw [List.nil_append] at heq
      subst heq
      exact absurd (hback.subset (List.mem_cons_of_mem _ (List.mem_singleton_self p)))
        (hdisjoint hmem)
    | cons first front =>
      obtain rfl := (List.cons.inj heq).1
      exact hfront.subset (List.mem_cons_self ..)

/-- An order of the streams is admissible. -/
theorem Allows.admissible (h : schedule.Allows graph order)
    (hdeals : schedule.Deals graph streams graph.size) (hsafe : plan.Safe graph streams) :
    plan.Admissible graph [] order := by
  have hrest : ∀ {rest pre done : List Nat}, order = pre ++ rest → (∀ p, p ∈ done ↔ p ∈ pre) →
      plan.Admissible graph done rest := by
    intro rest
    induction rest with
    | nil => exact fun _ _ ↦ .nil
    | cons p rest ih =>
      intro pre done horder hdone
      have horder' : order = (pre ++ [p]) ++ rest := by
        rw [List.append_assoc, List.singleton_append, horder]
      have hdone' : ∀ q, q ∈ p :: done ↔ q ∈ pre ++ [p] := by
        intro q
        rw [List.mem_cons, hdone, List.mem_append, List.mem_singleton, Or.comm]
      have hnodup := h.nodup
      rw [horder, List.nodup_middle, List.nodup_cons, List.mem_append, not_or] at hnodup
      have hsegment := h.segment hdeals horder' hdone'
      refine .cons (hdeals.closed hsafe (h.segment hdeals horder hdone))
        (hsegment.lt_size (List.mem_cons_self ..)) (fun hp ↦ hnodup.1.1 ((hdone p).1 hp))
        (fun q hedge ↦ hdeals.mem_of_edge_next hsegment hedge) (ih horder' hdone')
  exact hrest (List.nil_append order).symm fun _ ↦ Iff.rfl

/-- The streams may run all places in the order of the graph. -/
theorem allows_range (hdeals : schedule.Deals graph streams graph.size) :
    schedule.Allows graph (List.range graph.size) where
  perm := .refl _
  queue queue hqueue := by
    obtain ⟨s, hs⟩ := List.mem_iff_getElem?.1 hqueue
    rw [hdeals.queue_eq hs]
    exact List.filter_sublist
  waits p _ q hq := by
    have hedge := (hdeals.mem_waitsOf_iff.1 hq).1
    have hfront : [q, p].Sublist (List.range (p + 1)) := by
      rw [List.range_succ]
      exact (List.singleton_sublist.2 (List.mem_range.2 hedge.lt)).append (.refl [p])
    exact hfront.trans (List.range_sublist.2 hedge.lt_size)

end TensorEngine.StreamSchedule
