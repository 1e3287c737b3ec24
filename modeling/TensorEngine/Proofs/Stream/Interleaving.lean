import TensorEngine.Proofs.Execution.Visit
import TensorEngine.Proofs.Stream.Orders
import Mathlib.Algebra.GroupWithZero.Nat
import Mathlib.Data.Nat.Find
import Mathlib.Logic.Relation

/-!
# Interleavings of streams

Streams run their queues side by side.  A stream looks at the halt signal, waits for the places of
other streams that its next place needs, and visits the place.  A stream whose visit fails records
the failure, unless there is one already, raises the halt signal and gives up the rest of its queue;
so does a stream that sees the signal, or that waits for a place that was given up.  Visits are
whole steps, and the steps of the streams come in any order.

No interleaving gets stuck or runs for ever, and at its end either all places were visited or a
failure is on record.
-/

namespace TensorEngine

/-! ## Streams at work -/

/-- What a stream is about to do. -/
inductive StreamPhase where
  /-- Look at the halt signal in front of the next place. -/
  | idle
  /-- Wait for what the next place needs, and visit it. -/
  | entered
  | stopped
deriving DecidableEq, Repr, Inhabited

/-- How far a stream is. -/
structure StreamCursor where
  /-- The number of places of its queue that it has visited. -/
  next : Nat
  phase : StreamPhase
deriving DecidableEq, Repr, Inhabited

/-- The number of steps that a stream has left at most. -/
def StreamCursor.remaining (cursor : StreamCursor) (queue : List Nat) : Nat :=
  match cursor.phase with
  | .idle => 2 * (queue.length - cursor.next) + 1
  | .entered => 2 * (queue.length - cursor.next)
  | .stopped => 0

/-- Streams at work on one execution. -/
structure StreamRun (ι ω : Type) where
  cursors : List StreamCursor
  done : List Nat
  /-- The places that were given up. -/
  failed : List Nat
  halted : Bool
  failure : Option RuntimeError
  /-- What the visits have changed. -/
  state : ExecutionState ι ω

namespace StreamRun

variable {ι ω : Type}

/-- All streams in front of their queues. -/
def start (schedule : StreamSchedule) (state : ExecutionState ι ω) : StreamRun ι ω :=
  ⟨schedule.queues.map fun _ ↦ ⟨0, .idle⟩, [], [], false, none, state⟩

def move (run : StreamRun ι ω) (s : Nat) (cursor : StreamCursor) : StreamRun ι ω :=
  { run with cursors := run.cursors.set s cursor }

/-- A stream halts all others and gives up the rest of its queue. -/
def stop (run : StreamRun ι ω) (schedule : StreamSchedule) (s next : Nat) : StreamRun ι ω :=
  { run with
    cursors := run.cursors.set s ⟨next, .stopped⟩
    failed := run.failed ++ (schedule.queueOf s).drop next
    halted := true }

/-- A stream has a next place. -/
structure At (run : StreamRun ι ω) (schedule : StreamSchedule) (s : Nat) (cursor : StreamCursor)
    (p : Nat) : Prop where
  cursor_eq : run.cursors[s]? = some cursor
  next_eq : (schedule.queueOf s)[cursor.next]? = some p

/-- What the streams may do next. -/
inductive Step [Implementation ι ω] (context : ExecutionContext ι) (schedule : StreamSchedule) :
    StreamRun ι ω → StreamRun ι ω → Prop
  /-- A stream sees no halt signal. -/
  | enter {run : StreamRun ι ω} {s next p : Nat} (hat : run.At schedule s ⟨next, .idle⟩ p)
      (hhalted : run.halted = false) : Step context schedule run (run.move s ⟨next, .entered⟩)
  /-- A stream sees the halt signal. -/
  | halt {run : StreamRun ι ω} {s next p : Nat} (hat : run.At schedule s ⟨next, .idle⟩ p)
      (hhalted : run.halted = true) : Step context schedule run (run.stop schedule s next)
  /-- The first place that a stream still waits for was given up. -/
  | forsake {run : StreamRun ι ω} {s next p w : Nat}
      (hat : run.At schedule s ⟨next, .entered⟩ p) (hwaits : w ∈ schedule.waitsOf p)
      (hfailed : w ∈ run.failed) (hfirst : ∀ v ∈ schedule.waitsOf p, v < w → v ∈ run.done) :
      Step context schedule run (run.stop schedule s next)
  /-- A stream visits its next place. -/
  | complete {run : StreamRun ι ω} {s next p : Nat} {state : ExecutionState ι ω}
      (hat : run.At schedule s ⟨next, .entered⟩ p)
      (hwaits : ∀ w ∈ schedule.waitsOf p, w ∈ run.done)
      (hvisit : run.state.visit context p = (.ok (), state)) :
      Step context schedule run
        ({ run with done := p :: run.done, state }.move s ⟨next + 1, .idle⟩)
  | fail {run : StreamRun ι ω} {s next p : Nat} {error : RuntimeError}
      {state : ExecutionState ι ω} (hat : run.At schedule s ⟨next, .entered⟩ p)
      (hwaits : ∀ w ∈ schedule.waitsOf p, w ∈ run.done)
      (hvisit : run.state.visit context p = (.error error, state)) :
      Step context schedule run
        ({ run with failure := some (run.failure.getD error), state }.stop schedule s next)

def Leads [Implementation ι ω] (context : ExecutionContext ι) (schedule : StreamSchedule) :
    StreamRun ι ω → StreamRun ι ω → Prop :=
  Relation.ReflTransGen (Step context schedule)

/-- All streams have stopped or are behind their queues. -/
def Finished (run : StreamRun ι ω) (schedule : StreamSchedule) : Prop :=
  ∀ s cursor, run.cursors[s]? = some cursor → cursor.phase = .stopped ∨
    cursor.phase = .idle ∧ (schedule.queueOf s).length ≤ cursor.next

/-- The number of steps that are left at most. -/
def remaining (run : StreamRun ι ω) (schedule : StreamSchedule) : Nat :=
  (List.zipWith StreamCursor.remaining run.cursors schedule.queues).sum

/-! ## Places in order -/

/-- What holds of the cursors and the places at any time. -/
structure Ordered (run : StreamRun ι ω) (schedule : StreamSchedule) (graph : Graph) : Prop where
  length_cursors : run.cursors.length = schedule.queues.length
  /-- A stream has visited the places in front of its cursor. -/
  mem_done_iff : ∀ {s p : Nat} {cursor : StreamCursor}, run.cursors[s]? = some cursor →
    schedule.streamOf[p]? = some s → (p ∈ run.done ↔ p ∈ (schedule.queueOf s).take cursor.next)
  segment : schedule.Segment graph run.done
  exists_next : ∀ {s next : Nat}, run.cursors[s]? = some ⟨next, .entered⟩ →
    next < (schedule.queueOf s).length
  /-- A stream that has stopped has given up the places behind its cursor. -/
  mem_failed : ∀ {s next p : Nat}, run.cursors[s]? = some ⟨next, .stopped⟩ →
    p ∈ (schedule.queueOf s).drop next → p ∈ run.failed
  /-- Nothing is given up and no signal raised before there is a failure. -/
  calm : run.failure = none → run.halted = false ∧ run.failed = [] ∧
    ∀ s next : Nat, run.cursors[s]? ≠ some ⟨next, .stopped⟩

section

variable {context : ExecutionContext ι} {schedule : StreamSchedule} {graph : Graph}
  {run run' : StreamRun ι ω} {state : ExecutionState ι ω} {cursor : StreamCursor}
  {streams s t next p q : Nat}

/-- In front of a place in a sorted queue are the smaller places. -/
private theorem mem_take_iff {queue : List Nat} (hsorted : queue.Pairwise (· < ·))
    (hp : queue[next]? = some p) : q ∈ queue.take next ↔ q ∈ queue ∧ q < p := by
  obtain ⟨hnext, rfl⟩ := List.getElem?_eq_some_iff.1 hp
  have hsplit := List.take_append_drop next queue
  rw [List.drop_eq_getElem_cons hnext] at hsplit
  rw [← hsplit, List.pairwise_append, List.pairwise_cons] at hsorted
  obtain ⟨_, ⟨hback, _⟩, hfront⟩ := hsorted
  constructor
  · exact fun hq ↦ ⟨List.mem_of_mem_take hq, hfront q hq _ (List.mem_cons_self ..)⟩
  · rintro ⟨hq, hlt⟩
    rw [← hsplit, List.mem_append, List.mem_cons] at hq
    rcases hq with hq | rfl | hq
    · exact hq
    · exact absurd hlt (Nat.lt_irrefl _)
    · exact absurd (hback q hq) (Nat.lt_asymm hlt)

private theorem getElem?_set_eq_some {cursors : List StreamCursor} {new : StreamCursor}
    (h : (cursors.set s new)[t]? = some cursor) :
    s = t ∧ new = cursor ∨ s ≠ t ∧ cursors[t]? = some cursor := by
  rw [List.getElem?_set] at h
  split at h
  · rename_i heq
    split at h
    · exact .inl ⟨heq, Option.some.inj h⟩
    · cases h
  · rename_i hne
    exact .inr ⟨hne, h⟩

/-- A cursor in another phase than the new one is an old one. -/
private theorem getElem?_of_set {cursors : List StreamCursor} {new : StreamCursor}
    (h : (cursors.set s new)[t]? = some cursor) (hphase : new.phase ≠ cursor.phase) :
    cursors[t]? = some cursor := by
  rcases getElem?_set_eq_some h with ⟨_, rfl⟩ | ⟨_, hcursor⟩
  · exact absurd rfl hphase
  · exact hcursor

theorem ordered_start : (start schedule state).Ordered schedule graph := by
  have hzero : ∀ {s : Nat} {cursor : StreamCursor}, (start schedule state).cursors[s]? =
      some cursor → cursor = ⟨0, .idle⟩ := by
    intro s cursor hcursor
    rw [start, List.getElem?_map, Option.map_eq_some_iff] at hcursor
    obtain ⟨_, _, rfl⟩ := hcursor
    rfl
  refine ⟨List.length_map _, fun hcursor _ ↦ ?_, schedule.segment_nil graph, fun hcursor ↦ ?_,
    fun hcursor ↦ ?_, fun _ ↦ ?_⟩
  · obtain rfl := hzero hcursor
    rw [List.take_zero]
    exact Iff.rfl
  · cases hzero hcursor
  · cases hzero hcursor
  · exact ⟨rfl, rfl, fun s next hcursor ↦ nomatch hzero hcursor⟩

/-- The place in front of a cursor is one of the stream. -/
theorem At.streamOf (hat : run.At schedule s cursor p)
    (hdeals : schedule.Deals graph streams graph.size) : schedule.streamOf[p]? = some s :=
  hdeals.mem_queueOf_iff.1 (List.mem_of_getElem? hat.next_eq)

theorem Ordered.mem_done (h : run.Ordered schedule graph)
    (hdeals : schedule.Deals graph streams graph.size) (hat : run.At schedule s cursor p)
    (hq : schedule.streamOf[q]? = some s) : q ∈ run.done ↔ q < p := by
  rw [h.mem_done_iff hat.cursor_eq hq, mem_take_iff (hdeals.pairwise_queueOf s) hat.next_eq,
    hdeals.mem_queueOf_iff]
  exact and_iff_right hq

/-- What may be visited next continues what was visited. -/
theorem Ordered.segment_cons (h : run.Ordered schedule graph)
    (hdeals : schedule.Deals graph streams graph.size) (hat : run.At schedule s cursor p)
    (hwaits : ∀ w ∈ schedule.waitsOf p, w ∈ run.done) :
    schedule.Segment graph (p :: run.done) := by
  have hstream := hat.streamOf hdeals
  refine h.segment.cons (hdeals.lt_size hstream) (fun q t ht hq hlt ↦ ?_) hwaits
  obtain rfl := Option.some.inj (hstream.symm.trans ht)
  exact (h.mem_done hdeals hat hq).2 hlt

theorem Ordered.enter (h : run.Ordered schedule graph)
    (hat : run.At schedule s ⟨next, .idle⟩ p) :
    (run.move s ⟨next, .entered⟩).Ordered schedule graph := by
  refine ⟨by rw [move, List.length_set, h.length_cursors], fun {t q cursor} hcursor hq ↦ ?_,
    h.segment, fun {t next'} hcursor ↦ ?_, fun {t next' q} hcursor hq ↦ ?_, fun hfailure ↦ ?_⟩
  · rcases getElem?_set_eq_some hcursor with ⟨rfl, rfl⟩ | ⟨_, hcursor⟩
    · have hiff := h.mem_done_iff hat.cursor_eq hq
      exact hiff
    · exact h.mem_done_iff hcursor hq
  · rcases getElem?_set_eq_some hcursor with ⟨rfl, heq⟩ | ⟨_, hcursor⟩
    · obtain rfl : next = next' := congrArg StreamCursor.next heq
      exact (List.getElem?_eq_some_iff.1 hat.next_eq).1
    · exact h.exists_next hcursor
  · exact h.mem_failed (getElem?_of_set hcursor nofun) hq
  · obtain ⟨hhalted, hfailed, hstopped⟩ := h.calm hfailure
    exact ⟨hhalted, hfailed, fun t next' hcursor ↦ hstopped t next' (getElem?_of_set hcursor nofun)⟩

theorem Ordered.stop {phase : StreamPhase} (h : run.Ordered schedule graph)
    (hat : run.At schedule s ⟨next, phase⟩ p) (hfailure : run.failure ≠ none) :
    (run.stop schedule s next).Ordered schedule graph := by
  refine ⟨by rw [StreamRun.stop, List.length_set, h.length_cursors],
    fun {t q cursor} hcursor hq ↦ ?_, h.segment, fun {t next'} hcursor ↦ ?_,
    fun {t next' q} hcursor hq ↦ ?_, fun hnone ↦ absurd hnone hfailure⟩
  · rcases getElem?_set_eq_some hcursor with ⟨rfl, rfl⟩ | ⟨_, hcursor⟩
    · have hiff := h.mem_done_iff hat.cursor_eq hq
      exact hiff
    · exact h.mem_done_iff hcursor hq
  · exact h.exists_next (getElem?_of_set hcursor nofun)
  · rcases getElem?_set_eq_some hcursor with ⟨rfl, heq⟩ | ⟨_, hcursor⟩
    · obtain rfl : next = next' := congrArg StreamCursor.next heq
      exact List.mem_append_right _ hq
    · exact List.mem_append_left _ (h.mem_failed hcursor hq)

theorem Ordered.complete (h : run.Ordered schedule graph)
    (hdeals : schedule.Deals graph streams graph.size)
    (hat : run.At schedule s ⟨next, .entered⟩ p)
    (hwaits : ∀ w ∈ schedule.waitsOf p, w ∈ run.done) :
    ({ run with done := p :: run.done, state }.move s ⟨next + 1, .idle⟩).Ordered schedule
      graph := by
  have hstream := hat.streamOf hdeals
  refine ⟨by rw [move, List.length_set, h.length_cursors], fun {t q cursor} hcursor hq ↦ ?_,
    h.segment_cons hdeals hat hwaits, fun {t next'} hcursor ↦ ?_,
    fun {t next' q} hcursor hq ↦ ?_, fun hfailure ↦ ?_⟩
  · show q ∈ p :: run.done ↔ _
    rcases getElem?_set_eq_some hcursor with ⟨rfl, rfl⟩ | ⟨hne, hcursor⟩
    · rw [List.mem_cons, h.mem_done_iff hat.cursor_eq hq, List.take_add_one, hat.next_eq,
        Option.toList_some, List.mem_append, List.mem_singleton, Or.comm]
    · have hother : q ≠ p := fun heq ↦ hne (Option.some.inj (hstream.symm.trans (heq ▸ hq)))
      rw [List.mem_cons, or_iff_right hother, h.mem_done_iff hcursor hq]
  · exact h.exists_next (getElem?_of_set hcursor nofun)
  · exact h.mem_failed (getElem?_of_set hcursor nofun) hq
  · obtain ⟨hhalted, hfailed, hstopped⟩ := h.calm hfailure
    exact ⟨hhalted, hfailed, fun t next' hcursor ↦ hstopped t next' (getElem?_of_set hcursor nofun)⟩

/-- No step disturbs the order. -/
theorem Ordered.step [Implementation ι ω] (h : run.Ordered schedule graph)
    (hdeals : schedule.Deals graph streams graph.size) (hstep : Step context schedule run run') :
    run'.Ordered schedule graph := by
  cases hstep with
  | enter hat _ => exact h.enter hat
  | halt hat hhalted =>
    refine h.stop hat fun hnone ↦ ?_
    exact Bool.false_ne_true ((h.calm hnone).1.symm.trans hhalted)
  | forsake hat _ hfailed _ =>
    refine h.stop hat fun hnone ↦ ?_
    rw [(h.calm hnone).2.1] at hfailed
    exact List.not_mem_nil hfailed
  | complete hat hwaits _ => exact h.complete hdeals hat hwaits
  | fail hat _ _ =>
    exact Ordered.stop ⟨h.length_cursors, h.mem_done_iff, h.segment, h.exists_next,
      h.mem_failed, nofun⟩ ⟨hat.cursor_eq, hat.next_eq⟩ (Option.some_ne_none _)

/-! ## Runs end -/

/-- A stream with a next place can go on. -/
theorem exists_step_of_idle [Implementation ι ω] (hat : run.At schedule s ⟨next, .idle⟩ p) :
    ∃ run', Step context schedule run run' := by
  cases hhalted : run.halted with
  | true => exact ⟨_, .halt hat hhalted⟩
  | false => exact ⟨_, .enter hat hhalted⟩

/-- When a stream waits, it can go on, or some stream in front of it can. -/
theorem Ordered.exists_step_of_entered [Implementation ι ω] (h : run.Ordered schedule graph)
    (hdeals : schedule.Deals graph streams graph.size) :
    ∀ {p s next : Nat}, run.At schedule s ⟨next, .entered⟩ p →
      ∃ run', Step context schedule run run' := by
  intro p
  induction p using Nat.strongRecOn with
  | ind p ih =>
    intro s next hat
    by_cases hwaits : ∀ w ∈ schedule.waitsOf p, w ∈ run.done
    · cases hvisit : run.state.visit context p with
      | mk result state =>
        cases result with
        | ok _ => exact ⟨_, .complete hat hwaits hvisit⟩
        | error error => exact ⟨_, .fail hat hwaits hvisit⟩
    · obtain ⟨w, ⟨hmem, hnew⟩, hfirst⟩ : ∃ w, (w ∈ schedule.waitsOf p ∧ w ∉ run.done) ∧
          ∀ v < w, ¬ (v ∈ schedule.waitsOf p ∧ v ∉ run.done) := by
        classical
        have hexists : ∃ w, w ∈ schedule.waitsOf p ∧ w ∉ run.done := by
          simpa only [not_forall, exists_prop] using hwaits
        exact ⟨Nat.find hexists, Nat.find_spec hexists, fun v hv ↦ Nat.find_min hexists hv⟩
      have hedge := (hdeals.mem_waitsOf_iff.1 hmem).1
      obtain ⟨t, ht⟩ := hdeals.exists_stream (Nat.lt_trans hedge.lt hedge.lt_size)
      obtain ⟨⟨next', phase⟩, hcursor⟩ : ∃ cursor, run.cursors[t]? = some cursor := by
        have hlt := hdeals.stream_lt ht
        rw [← hdeals.length_queues, ← h.length_cursors] at hlt
        exact ⟨_, List.getElem?_eq_getElem hlt⟩
      have hdrop : w ∈ (schedule.queueOf t).drop next' := by
        have hqueue := hdeals.mem_queueOf_iff.2 ht
        rw [← List.take_append_drop next' (schedule.queueOf t), List.mem_append] at hqueue
        exact hqueue.resolve_left fun htake ↦ hnew ((h.mem_done_iff hcursor ht).2 htake)
      obtain ⟨p', hp'⟩ : ∃ p', (schedule.queueOf t)[next']? = some p' := by
        have hlt := List.length_pos_of_mem hdrop
        rw [List.length_drop] at hlt
        exact ⟨_, List.getElem?_eq_getElem (by omega)⟩
      have hat' : run.At schedule t ⟨next', phase⟩ p' := ⟨hcursor, hp'⟩
      cases phase with
      | idle => exact exists_step_of_idle hat'
      | entered =>
        have hle : p' ≤ w := Nat.le_of_not_lt fun hlt ↦ hnew ((h.mem_done hdeals hat' ht).2 hlt)
        exact ih p' (Nat.lt_of_le_of_lt hle hedge.lt) hat'
      | stopped =>
        refine ⟨_, .forsake hat hmem (h.mem_failed hcursor hdrop) fun v hv hlt ↦ ?_⟩
        by_contra hnot
        exact hfirst v hlt ⟨hv, hnot⟩

/-- Streams that have not finished can go on. -/
theorem Ordered.finished_or_step [Implementation ι ω] (h : run.Ordered schedule graph)
    (hdeals : schedule.Deals graph streams graph.size) :
    run.Finished schedule ∨ ∃ run', Step context schedule run run' := by
  by_cases hstep : ∃ run', Step context schedule run run'
  · exact .inr hstep
  · refine .inl fun s cursor hcursor ↦ ?_
    obtain ⟨next, phase⟩ := cursor
    cases phase with
    | stopped => exact .inl rfl
    | entered =>
      have hnext := List.getElem?_eq_getElem (h.exists_next hcursor)
      exact absurd (h.exists_step_of_entered hdeals ⟨hcursor, hnext⟩) hstep
    | idle =>
      refine .inr ⟨rfl, Nat.le_of_not_lt fun hlt ↦ hstep ?_⟩
      exact exists_step_of_idle ⟨hcursor, List.getElem?_eq_getElem hlt⟩

private theorem sum_remaining_set_lt {cursors : List StreamCursor} {queues : List (List Nat)}
    {new : StreamCursor} {queue : List Nat} (hcursor : cursors[s]? = some cursor)
    (hqueue : queues[s]? = some queue) (h : new.remaining queue < cursor.remaining queue) :
    (List.zipWith StreamCursor.remaining (cursors.set s new) queues).sum <
      (List.zipWith StreamCursor.remaining cursors queues).sum := by
  induction cursors generalizing s queues with
  | nil => cases hcursor
  | cons first cursors ih =>
    cases queues with
    | nil => cases hqueue
    | cons queue' queues =>
      cases s with
      | zero =>
        obtain rfl := Option.some.inj hcursor
        obtain rfl := Option.some.inj hqueue
        exact Nat.add_lt_add_right h _
      | succ s => exact Nat.add_lt_add_left (ih hcursor hqueue) _

/-- What a stream does with its next place takes one of its steps. -/
theorem At.remaining_lt {new : StreamCursor} (hat : run.At schedule s cursor p)
    (h : ∀ queue : List Nat, cursor.next < queue.length →
      new.remaining queue < cursor.remaining queue) :
    (List.zipWith StreamCursor.remaining (run.cursors.set s new) schedule.queues).sum <
      run.remaining schedule := by
  have hnext := (List.getElem?_eq_some_iff.1 hat.next_eq).1
  unfold StreamSchedule.queueOf at hnext
  cases hqueue : schedule.queues[s]? with
  | none =>
    rw [hqueue] at hnext
    exact absurd hnext (Nat.not_lt_zero _)
  | some queue =>
    rw [hqueue] at hnext
    exact sum_remaining_set_lt hat.cursor_eq hqueue (h queue hnext)

/-- With every step, fewer are left. -/
theorem Step.remaining_lt [Implementation ι ω] (hstep : Step context schedule run run') :
    run'.remaining schedule < run.remaining schedule := by
  cases hstep with
  | enter hat _ => exact hat.remaining_lt fun queue _ ↦ Nat.lt_succ_self _
  | halt hat _ => exact hat.remaining_lt fun queue _ ↦ Nat.succ_pos _
  | forsake hat _ _ _ | complete hat _ _ | fail hat _ _ =>
    refine hat.remaining_lt fun queue hnext ↦ ?_
    simp only [StreamCursor.remaining] at hnext ⊢
    omega

/-- When no failure is on record at the end, all places were visited. -/
theorem Ordered.mem_done_of_finished (h : run.Ordered schedule graph)
    (hdeals : schedule.Deals graph streams graph.size) (hfinished : run.Finished schedule)
    (hfailure : run.failure = none) (hp : p < graph.size) : p ∈ run.done := by
  obtain ⟨s, hs⟩ := hdeals.exists_stream hp
  have hlt := hdeals.stream_lt hs
  rw [← hdeals.length_queues, ← h.length_cursors] at hlt
  have hcursor := List.getElem?_eq_getElem hlt
  rcases hfinished s _ hcursor with hstopped | ⟨_, hnext⟩
  · refine absurd hcursor ?_
    generalize run.cursors[s] = cursor at hstopped
    obtain ⟨next, phase⟩ := cursor
    obtain rfl : phase = .stopped := hstopped
    exact (h.calm hfailure).2.2 s next
  · rw [h.mem_done_iff hcursor hs, List.take_of_length_le hnext]
    exact hdeals.mem_queueOf_iff.2 hs

end

end StreamRun

end TensorEngine
