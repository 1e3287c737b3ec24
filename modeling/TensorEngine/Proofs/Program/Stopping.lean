import TensorEngine.Proofs.Execution.Stopping
import TensorEngine.Proofs.Program.Resting
import TensorEngine.Proofs.Stream.Orders

/-!
# Executions that stop

An execution on one stream stops at the first failure and touches nothing behind it.  Whatever was
called before, and whenever the run is cancelled, the places that were completed are the first ones
of the graph: each of them counts a run when it has an implementation to run, and apart from the
place whose visit failed nothing else has changed.
-/

namespace TensorEngine

variable {ι ω : Type} [Implementation ι ω] {graph : Graph} {registry : Registry ι}
  {device : DeviceCaps} {config : RuntimeConfig}

namespace StreamSchedule

/-- All places are on one queue in order, and none waits for another. -/
structure Single (schedule : StreamSchedule) (graph : Graph) : Prop where
  queues_eq : schedule.queues = [List.range graph.size]
  waitsOf_eq : ∀ p, schedule.waitsOf p = []

theorem Deals.single {schedule : StreamSchedule} {streams : Nat}
    (h : schedule.Deals graph streams graph.size) (hstreams : streams ≤ 1) :
    schedule.Single graph := by
  have hone : max streams 1 = 1 := Nat.max_eq_right hstreams
  have hstream : ∀ p < graph.size, schedule.streamOf[p]? = some 0 := by
    intro p hp
    obtain ⟨s, hs⟩ := h.exists_stream hp
    obtain rfl : s = 0 := by
      have hlt := h.stream_lt hs
      omega
    exact hs
  constructor
  · obtain ⟨queue, hqueue⟩ := List.length_eq_one_iff.1 (h.length_queues.trans hone)
    have hfirst : schedule.queues[0]? = some queue := by
      rw [hqueue]
      rfl
    rw [hqueue, h.queue_eq hfirst, List.filter_eq_self.2]
    exact fun p hp ↦ decide_eq_true (hstream p (List.mem_range.1 hp))
  · refine fun p ↦ List.eq_nil_iff_forall_not_mem.2 fun q hq ↦ ?_
    obtain ⟨hedge, hother⟩ := h.mem_waitsOf_iff.1 hq
    have hp := hedge.lt_size
    exact hother ((hstream q (Nat.lt_trans hedge.lt hp)).trans (hstream p hp).symm)

end StreamSchedule

namespace Program

variable {program program' : Program ι} {bindings : Bindings} {standard : Standard ι ω}

/-- Executions keep the schedule, and rebuilds make the same one again. -/
theorem Evolves.schedule_eq (h : program.Evolves ω program')
    (hcompiled : program.CompiledFor graph registry device config)
    (hupheld : program.Upheld (.anything ι ω))
    (hschedule : program.schedule = .ofGraph graph config.streamCount) :
    program'.schedule = .ofGraph graph config.streamCount := by
  induction h with
  | refl => exact hschedule
  | @execute before _ bindings cancelled session ih =>
    have hexecutes := before.executesAs bindings cancelled session
    generalize before.execute bindings cancelled session = answer at hexecutes
    cases hexecutes with
    | poisoned | unbound | completed => exact ih
    | failed =>
      simp only [afterFailure]
      split <;> exact ih
  | @rebuild before hbefore store session ih =>
    rcases before.rebuild_cases store session with ⟨_, _, hsame⟩ | ⟨_, _, _, hbuild⟩
    · rw [hsame]
      exact ih
    · obtain ⟨⟨hgraph, hregistry, hdevice, hconfig⟩, _⟩ :=
        hbefore.upheld_anything hcompiled hupheld
      rw [hgraph, hregistry, hdevice, hconfig] at hbuild
      exact (upheld_anything_of_build hbuild).2.schedule_eq

/-- What an execution has done that completed the first places and touched no others than these and
perhaps the next one: the visits of the first places have succeeded, it was not cancelled in front
of the places that it touched, and nothing has happened to the places behind them. -/
structure Completes (program : Program ι) (bindings : Bindings) (cancelled : Nat → ω → Bool)
    (session : Session ω) (completed touched : Nat) (after : Program ι) : Prop where
  passes : (program.executionState session).Passes (program.context bindings) completed
  uncancelled : (program.executionState session).Uncancelled (program.context bindings) cancelled
    touched
  progressed : ExecutionState.Progressed program.plan completed touched program.instances
    program.pool after.instances after.pool

/-- How an execution ends whose bindings fit: the visit of some place fails, it is cancelled in
front of some place, or all places are completed and the outputs are read. -/
inductive EndsAt (program : Program ι) (bindings : Bindings) (cancelled : Nat → ω → Bool)
    (session : Session ω) : Except RuntimeError (List HostTensor) → Program ι → Prop
  | failed {p : Nat} {error : RuntimeError} {after : Program ι} (hp : p < program.graph.size)
      (hfails : (program.executionState session).FailsFirst (program.context bindings) p error)
      (hnever : ∀ c, error ≠ .aborted c)
      (hdone : program.Completes bindings cancelled session p (p + 1) after) :
      EndsAt program bindings cancelled session (.error error) after
  | aborted {c : Nat} {after : Program ι} (hc : c < program.graph.size)
      (hcancelled : cancelled c ((program.executionState session).afterVisits
        (program.context bindings) c).workspace.environment = true)
      (hdone : program.Completes bindings cancelled session c c after)
      (hpoison : after.poison = none) :
      EndsAt program bindings cancelled session (.error (.aborted c)) after
  | completed {after : Program ι}
      (hdone : program.Completes bindings cancelled session program.graph.size program.graph.size
        after) :
      EndsAt program bindings cancelled session
        (program.graph.outputs.mapM (after.readOutput ((program.executionState session).afterVisits
          (program.context bindings) program.graph.size).extents)) after

theorem Upheld.endsAt (h : program.Upheld standard) (hpoison : program.poison = none)
    (hbindings : program.checkBindings bindings = .ok ()) (cancelled : Nat → ω → Bool)
    (session : Session ω) :
    program.EndsAt bindings cancelled session (program.execute bindings cancelled session).1
      (program.execute bindings cancelled session).2.1 := by
  have hupholds := h.runnable hpoison session
  have hexecutes := program.executesAs bindings cancelled session
  have hstops := ExecutionState.stops_run (program.context bindings) cancelled
    (program.executionState session)
  generalize program.execute bindings cancelled session = answer at hexecutes
  cases hexecutes with
  | poisoned poison hsome =>
    rw [hpoison] at hsome
    cases hsome
  | unbound error _ herror =>
    rw [hbindings] at herror
    cases herror
  | failed error state _ hrun =>
    have hleaves : ((program.withState state).afterFailure error).instances = state.instances ∧
        ((program.withState state).afterFailure error).pool = state.pool := by
      unfold afterFailure
      split <;> exact ⟨rfl, rfl⟩
    rw [hrun] at hstops
    cases hstops with
    | failed hp hfails hgoes =>
      have hprogressed := hfails.progressed h.holds hupholds
      rw [← hleaves.1, ← hleaves.2] at hprogressed
      exact .failed hp hfails (hfails.ne_aborted h.holds hupholds)
        ⟨hfails.passes, hgoes, hprogressed⟩
    | aborted hc hpasses hgoes hcancelled =>
      exact .aborted hc hcancelled ⟨hpasses, hgoes, (hpasses.progressed h.holds hupholds).2⟩ hpoison
  | completed state _ hrun =>
    rw [hrun] at hstops
    cases hstops with
    | completed hpasses hgoes =>
      exact .completed ⟨hpasses, hgoes, (hpasses.progressed h.holds hupholds).2⟩

/-- An execution on one stream stops at the first failure.  When it answers the failure of a place,
that is the first place whose visit fails after those of the places in front of it; when it was
cancelled, the places in front were completed and the program is not poisoned.  Nothing has happened
to the places behind, and bindings that do not fit change nothing at all.  Any other failure is that
of reading an output, with all places completed. -/
theorem execute_stops_first {store after : Option ArtifactStore} {before after' : Session ω}
    (hstreams : config.streamCount = 1)
    (hbuild : build graph registry device config store before = (.ok program, after, after'))
    (h : program.Evolves ω program') (hpoison : program'.poison = none) (bindings : Bindings)
    (cancelled : Nat → ω → Bool) (session : Session ω) :
    let answer := program'.execute bindings cancelled session
    let state := program'.executionState session
    let context := program'.context bindings
    program'.schedule.Single program'.graph ∧
    (∀ error, program'.checkBindings bindings = .error error →
      answer = (.error error, program', session)) ∧
    (∀ c, answer.1 = .error (.aborted c) →
      c < program'.graph.size ∧
      cancelled c (state.afterVisits context c).workspace.environment = true ∧
      program'.Completes bindings cancelled session c c answer.2.1 ∧ answer.2.1.poison = none) ∧
    (∀ error, program'.checkBindings bindings = .ok () → answer.1 = .error error →
      (∀ c, error ≠ .aborted c) →
      (∃ p < program'.graph.size, state.FailsFirst context p error ∧
        program'.Completes bindings cancelled session p (p + 1) answer.2.1) ∨
      (∃ id ∈ program'.graph.outputs, answer.2.1.readOutput
        (state.afterVisits context program'.graph.size).extents id = .error error) ∧
        program'.Completes bindings cancelled session program'.graph.size program'.graph.size
          answer.2.1) ∧
    ∀ outputs, answer.1 = .ok outputs →
      program'.Completes bindings cancelled session program'.graph.size program'.graph.size
        answer.2.1 := by
  obtain ⟨hupheld', hfrom⟩ := upheld_anything_of_build hbuild
  have hschedule := h.schedule_eq hfrom.compiledFor hupheld' hfrom.schedule_eq
  obtain ⟨⟨hgraph, _, _, _⟩, hupheld⟩ := h.upheld_anything hfrom.compiledFor hupheld'
  have hsingle := (StreamSchedule.deals_ofGraph graph config.streamCount).single hstreams.le
  rw [← hschedule, ← hgraph] at hsingle
  have hunbound : ∀ error, program'.checkBindings bindings = .error error →
      program'.execute bindings cancelled session = (.error error, program', session) := by
    intro error herror
    unfold execute
    rw [hpoison, herror]
  refine ⟨hsingle, hunbound, ?_⟩
  cases hbindings : program'.checkBindings bindings with
  | error error =>
    rw [hunbound error hbindings]
    refine ⟨fun c hc ↦ ?_, nofun, nofun⟩
    obtain rfl := Except.error.inj hc
    exact absurd (ofRun_checkBindings hbindings) id
  | ok _ =>
    have hends := hupheld.endsAt hpoison hbindings cancelled session
    generalize program'.execute bindings cancelled session = answer at hends ⊢
    obtain ⟨result, after, current⟩ := answer
    simp only at hends ⊢
    cases hends with
    | failed hp hfails hnever hdone =>
      refine ⟨fun c hc ↦ absurd (Except.error.inj hc) (hnever c), fun error _ herror _ ↦ ?_, nofun⟩
      obtain rfl := Except.error.inj herror
      exact .inl ⟨_, hp, hfails, hdone⟩
    | aborted hc hcancelled hdone hpoison' =>
      refine ⟨fun c heq ↦ ?_, fun error _ herror hnever ↦ ?_, nofun⟩
      · cases heq
        exact ⟨hc, hcancelled, hdone, hpoison'⟩
      · exact absurd (Except.error.inj herror).symm (hnever _)
    | completed hdone =>
      refine ⟨fun c hc ↦ ?_, fun error _ herror _ ↦ .inr ⟨?_, hdone⟩, fun _ _ ↦ hdone⟩
      · obtain ⟨_, _, hread⟩ := mapM_eq_error hc
        exact absurd (ofCall_readOutput hread) id
      · exact mapM_eq_error herror

/-- Two numbers are bound before doubling them is cancelled. -/
theorem execute_stops_first_doublingGraph : ∃ program store after,
    build doublingGraph referenceRegistry openDevice {} none freshSession =
      (.ok program, store, after) ∧
    ∀ bindings ∈ twoCalls,
      let answer := program.execute bindings (fun completed _ ↦ completed = 1) freshSession
      answer.1 = .error (.aborted 1) ∧ answer.2.1.poison = none ∧
      program.Completes bindings (fun completed _ ↦ completed = 1) freshSession 1 1
        answer.2.1 := by
  obtain ⟨program, store, after, hbuild⟩ := exists_of_build doublingGraph referenceRegistry
    openDevice {} (by decide +kernel)
  have haborted : (build doublingGraph referenceRegistry openDevice {} none
      freshSession).1.toOption.map (fun program ↦ (program.poison, decide (∀ bindings ∈ twoCalls,
        (program.execute bindings (fun completed (_ : Environment) ↦ completed = 1)
          freshSession).1 = .error (.aborted 1)))) = some (none, true) := by
    decide +kernel
  rw [hbuild] at haborted
  obtain ⟨hpoison, haborted⟩ := Prod.ext_iff.1 (Option.some.inj haborted)
  refine ⟨program, store, after, hbuild, fun bindings hbindings ↦ ?_⟩
  have hanswer := of_decide_eq_true haborted bindings hbindings
  obtain ⟨_, _, hstops, _, _⟩ := execute_stops_first rfl hbuild .refl hpoison bindings
    (fun completed _ ↦ completed = 1) freshSession
  obtain ⟨_, _, hdone, hpoison'⟩ := hstops 1 hanswer
  exact ⟨hanswer, hpoison', hdone⟩

end Program

end TensorEngine
