import TensorEngine.Proofs.Program.Refinement
import TensorEngine.Proofs.Stream.Interleaving

/-!
# Streams agree

A program for several streams answers what the program of the same graph for one stream answers,
in whatever order the streams take their steps, and fails when that one fails; unless memory is
refused.
-/

namespace TensorEngine

open CatalogueImplementation

/-! ## Truthful runs -/

namespace StreamRun

def answer {ι ω : Type} (run : StreamRun ι ω) (program : Program ι) :
    Except RuntimeError (List HostTensor) :=
  match run.failure with
  | some error => .error error
  | none =>
    program.graph.outputs.mapM ((program.withState run.state).readOutput run.state.extents)

variable {program : Program CatalogueImplementation} {bindings : Bindings}
  {run run' : StreamRun CatalogueImplementation Environment} {s p : Nat} {cursor : StreamCursor}

/-- As long as there is no failure, the places that were visited have their naive values; and a
failure means that some place has none. -/
structure Truthful (run : StreamRun CatalogueImplementation Environment)
    (program : Program CatalogueImplementation) (bindings : Bindings) : Prop where
  ordered : run.Ordered program.schedule program.graph
  fit : run.failure = none → run.state.Fit program.graph program.plan program.registry
  simulates : run.failure = none →
    run.state.slots.Simulates program.graph bindings program.plan run.done
  blames : ∀ error, run.failure = some error → Refused (.error error : Except RuntimeError Unit) ∨
    ∃ p < program.graph.size, program.graph.value bindings p = none

variable (hfit : program.Fit)
  (hdeals : program.schedule.Deals program.graph program.config.streamCount program.graph.size)
  (hconstants : program.graph.ConstantsWellFormed) (hbindings : bindings.WellFormed)

include hfit hdeals hconstants hbindings

/-- The visit of a stream computes the naive value of its place. -/
theorem Truthful.visit (h : run.Truthful program bindings) (hfailure : run.failure = none)
    (hat : run.At program.schedule s cursor p)
    (hwaits : ∀ w ∈ program.schedule.waitsOf p, w ∈ run.done) :
    let answer := run.state.visit (program.context bindings) p
    Slots.Visits program.graph bindings program.plan run.done p (answer.1, answer.2.slots) ∧
      (Harmless answer.1 → answer.2.Fit program.graph program.plan program.registry) := by
  have hsegment := h.ordered.segment_cons hdeals hat hwaits
  have hp := hsegment.lt_size (List.mem_cons_self ..)
  have hnew : p ∉ run.done := fun hmem ↦
    Nat.lt_irrefl p ((h.ordered.mem_done hdeals hat (hat.streamOf hdeals)).1 hmem)
  obtain ⟨hresult, hslots, hfit'⟩ := ExecutionState.visit_spec (program.context bindings)
    hfit.exact hfit.device hfit.safe (h.fit hfailure) p
  have hvisits := (h.simulates hfailure).visit (program.context bindings) hfit.safe hconstants
    hbindings (hdeals.closed hfit.safe h.ordered.segment) hp hnew
    fun q hedge ↦ hdeals.mem_of_edge_next hsegment hedge
  refine ⟨?_, fun hharmless ↦ hfit' (hresult ▸ hharmless)⟩
  rw [hresult, hslots]
  exact hvisits

/-- No step makes a truthful run lie. -/
theorem Truthful.step (h : run.Truthful program bindings)
    (hstep : Step (program.context bindings) program.schedule run run') :
    run'.Truthful program bindings := by
  have hordered := h.ordered.step hdeals hstep
  cases hstep with
  | enter _ _ | halt _ _ | forsake _ _ _ _ => exact ⟨hordered, h.fit, h.simulates, h.blames⟩
  | complete hat hwaits hvisit =>
    have hvisits := fun hfailure ↦
      h.visit hfit hdeals hconstants hbindings hfailure hat hwaits
    rw [hvisit] at hvisits
    refine ⟨hordered, fun hfailure ↦ (hvisits hfailure).2 (harmless_ok _), fun hfailure ↦ ?_,
      h.blames⟩
    rcases (hvisits hfailure).1 with ⟨_, _, _, hrefused⟩ | ⟨_, hsim⟩ | ⟨_, _, herror⟩
    · cases hrefused
    · exact hsim
    · cases herror
  | @fail _ _ p error state hat hwaits hvisit =>
    refine ⟨hordered, nofun, nofun, fun other hother ↦ ?_⟩
    obtain rfl := Option.some.inj hother
    cases hfailure : run.failure with
    | some first => exact h.blames first hfailure
    | none =>
      have hvisits := (h.visit hfit hdeals hconstants hbindings hfailure hat hwaits).1
      rw [hvisit] at hvisits
      rcases hvisits with hrefused | ⟨hok, _⟩ | ⟨hnone, _⟩
      · exact .inl hrefused
      · cases hok
      · exact .inr ⟨p, hdeals.lt_size (hat.streamOf hdeals), hnone⟩

theorem Leads.truthful (h : Leads (program.context bindings) program.schedule run run')
    (hrun : run.Truthful program bindings) : run'.Truthful program bindings := by
  induction h with
  | refl => exact hrun
  | tail _ hstep ih => exact ih.step hfit hdeals hconstants hbindings hstep

omit hfit hdeals hconstants hbindings

theorem truthful_start {session : Session Environment} (hfit : program.Fit)
    (hpoison : program.poison = none) (htrusts : program.registry.Trusts session.environment) :
    (start program.schedule (program.executionState session)).Truthful program bindings :=
  ⟨ordered_start, fun _ ↦ hfit.runnable hpoison session htrusts,
    fun _ ↦ hfit.simulates hpoison htrusts, nofun⟩

/-- In the end the streams answer the naive outputs, or fail exactly when there are none. -/
theorem Truthful.answer_refines (h : run.Truthful program bindings) (hfit : program.Fit)
    (hdeals : program.schedule.Deals program.graph program.config.streamCount program.graph.size)
    (hconstants : program.graph.ConstantsWellFormed) (hbindings : bindings.WellFormed)
    (hfinished : run.Finished program.schedule) :
    Refused (run.answer program) ∨
      (run.answer program).toOption = program.graph.evaluate bindings := by
  unfold answer
  cases hfailure : run.failure with
  | some error =>
    rcases h.blames error hfailure with ⟨requested, slot, reason, hrefused⟩ | ⟨p, hp, hnone⟩
    · exact .inl ⟨requested, slot, reason, congrArg _ (Except.error.inj hrefused)⟩
    · exact .inr (Graph.evaluate_eq_none hp hnone).symm
  | none =>
    obtain ⟨outputs, hevaluate, hread⟩ := Program.readOutputs_eq hfit.safe hconstants hbindings
      (h.simulates hfailure) fun p hp ↦
        h.ordered.mem_done_of_finished hdeals hfinished hfailure hp
    exact .inr ((toOption_eq_some_iff.2 hread).trans hevaluate.symm)

/-- When a place was given up, the streams answer a failure. -/
theorem Truthful.answer_error (h : run.Truthful program bindings) (hfailed : run.failed ≠ []) :
    ∃ error, run.answer program = .error error := by
  unfold answer
  cases hfailure : run.failure with
  | some error => exact ⟨error, rfl⟩
  | none => exact absurd (h.ordered.calm hfailure).2.1 hfailed

/-- When the streams answer outputs, the extents of all places are known. -/
theorem Truthful.exists_extents (h : run.Truthful program bindings)
    (hdeals : program.schedule.Deals program.graph program.config.streamCount program.graph.size)
    (hfinished : run.Finished program.schedule) {outputs : List HostTensor}
    (hanswer : run.answer program = .ok outputs) (hp : p < program.graph.size) :
    ∃ dims, run.state.extents[p]? = some (some dims) := by
  have hfailure : run.failure = none := by
    unfold answer at hanswer
    cases hfailure : run.failure with
    | some error =>
      rw [hfailure] at hanswer
      exact absurd hanswer error_ne_ok
    | none => rfl
  have hmem := h.ordered.mem_done_of_finished hdeals hfinished hfailure hp
  obtain ⟨tensor, _, hextents, _⟩ := (h.simulates hfailure).exists_value hmem
  exact ⟨tensor.dims, hextents⟩

end StreamRun

/-! ## Programs for several streams -/

/-- The same outputs or a failure on both sides, unless memory is refused on one of them. -/
def SameOutputs (a b : Except RuntimeError (List HostTensor)) : Prop :=
  Refused a ∨ Refused b ∨ a.toOption = b.toOption

theorem sameOutputs_of_naive {naive : Option (List HostTensor)}
    {a b : Except RuntimeError (List HostTensor)} (ha : Refused a ∨ a.toOption = naive)
    (hb : Refused b ∨ b.toOption = naive) : SameOutputs a b := by
  rcases ha with hrefused | ha
  · exact .inl hrefused
  · rcases hb with hrefused | hb
    · exact .inr (.inl hrefused)
    · exact .inr (.inr (ha.trans hb.symm))

namespace Program

theorem BuiltFrom.deals {program : Program CatalogueImplementation} {graph : Graph}
    {registry : Registry CatalogueImplementation} {device : DeviceCaps} {config : RuntimeConfig}
    {granted : Nat} (h : program.BuiltFrom graph registry device config granted) :
    program.schedule.Deals program.graph program.config.streamCount program.graph.size := by
  rw [h.schedule_eq, h.config_eq, h.graph_eq]
  exact StreamSchedule.deals_ofGraph graph config.streamCount

/-- The interleaving of streams is invisible.  Along every order that the schedule allows, and at
the end of every run of the streams, a program for several streams answers what the program for one
stream answers.  Every run comes to an end, and when it has given up some place it answers a
failure, never outputs of unknown extents.  A cache has to tell the nodes of the graph apart. -/
theorem streams_agree {graph : Graph} {registry : Registry CatalogueImplementation}
    {device : DeviceCaps} {config : RuntimeConfig} {streams : Nat}
    {program single : Program CatalogueImplementation} {store store' : Option ArtifactStore}
    {session session' after after' current current' : Session Environment} {bindings : Bindings}
    (hregistry : registry.descriptors = referenceDescriptors)
    (hdevice : device.enables .reference = true) (hconstants : graph.ConstantsWellFormed)
    (hcache : config.implCacheCapacity = 0 ∨ graph.SignaturesFaithful)
    (hbuild : build graph registry device (config.withStreams streams) none session =
      (.ok program, store, after))
    (hsingle : build graph registry device (config.withStreams 1) none session' =
      (.ok single, store', after'))
    (hbindings : bindings.WellFormed) :
    let expected := (single.execute bindings never current').1
    (∀ order, program.schedule.Allows graph order →
      SameOutputs (program.executeAlong bindings order current) expected) ∧
    ∀ run, StreamRun.Leads (program.context bindings) program.schedule
        (.start program.schedule (program.executionState current)) run →
      (run.Finished program.schedule ∨ ∃ run',
        StreamRun.Step (program.context bindings) program.schedule run run') ∧
      (∀ run', StreamRun.Step (program.context bindings) program.schedule run run' →
        run'.remaining program.schedule < run.remaining program.schedule) ∧
      (run.Finished program.schedule →
        SameOutputs (run.answer program) expected ∧
        (run.failed ≠ [] → ∃ error, run.answer program = .error error) ∧
        ∀ outputs, run.answer program = .ok outputs →
          ∀ p < graph.size, ∃ dims, run.state.extents[p]? = some (some dims)) := by
  have htrusts := Registry.trusts_of_reference hregistry
  have hexact := Registry.exact_of_reference hregistry
  obtain ⟨hfit, hfrom, _⟩ := fit_of_build (config.withStreams streams) hexact hdevice
    hcache (htrusts _) hbuild
  obtain ⟨hfit', hfrom', _⟩ := fit_of_build (config.withStreams 1) hexact hdevice
    hcache (htrusts _) hsingle
  rw [← hfrom.registry_eq] at htrusts
  have htrusts' : single.registry.Trusts current'.environment := by
    rw [hfrom'.registry_eq, ← hfrom.registry_eq]
    exact htrusts _
  have hdeals := hfrom.deals
  have hexpected := hfit'.refines hfrom'.poison_eq htrusts' (hfrom'.graph_eq ▸ hconstants) hbindings
  rw [hfrom'.graph_eq] at hexpected
  obtain rfl := hfrom.graph_eq
  refine ⟨fun order horder ↦ ?_, fun run hleads ↦ ?_⟩
  · refine sameOutputs_of_naive ?_ hexpected
    exact hfit.executeAlong_refines hfrom.poison_eq (htrusts _) hconstants hbindings
      (horder.admissible hdeals hfit.safe) fun p hp ↦ horder.mem_iff.2 hp
  · have htruthful := hleads.truthful hfit hdeals hconstants hbindings
      (StreamRun.truthful_start hfit hfrom.poison_eq (htrusts _))
    refine ⟨htruthful.ordered.finished_or_step hdeals, fun run' hstep ↦ hstep.remaining_lt,
      fun hfinished ↦ ⟨?_, htruthful.answer_error, fun outputs houtputs p hp ↦ ?_⟩⟩
    · exact sameOutputs_of_naive
        (htruthful.answer_refines hfit hdeals hconstants hbindings hfinished) hexpected
    · exact htruthful.exists_extents hdeals hfinished houtputs hp

/-- With the usual cache, two streams that visit the absolute value first answer it twice, and one
stream answers the negation twice. -/
theorem streams_disagree : ∃ program store after single store' after',
    build collidingGraph referenceRegistry openDevice (RuntimeConfig.withStreams {} 2) none
      freshSession = (.ok program, store, after) ∧
    build collidingGraph referenceRegistry openDevice (RuntimeConfig.withStreams {} 1) none
      freshSession = (.ok single, store', after') ∧
    collidingGraph.ConstantsWellFormed ∧ five.WellFormed ∧
    program.schedule.Allows collidingGraph [0, 2, 1] ∧
    program.executeAlong five [0, 2, 1] freshSession = .ok [number 5, number 5] ∧
    (single.execute five never freshSession).1 = .ok [number (-5), number (-5)] := by
  obtain ⟨program, store, after, hbuild⟩ := exists_of_build collidingGraph referenceRegistry
    openDevice (RuntimeConfig.withStreams {} 2) (by decide +kernel)
  obtain ⟨single, store', after', hsingle⟩ := exists_of_build collidingGraph referenceRegistry
    openDevice (RuntimeConfig.withStreams {} 1) (by decide +kernel)
  have hanswer : (build collidingGraph referenceRegistry openDevice
      (RuntimeConfig.withStreams {} 2) none freshSession).1.toOption.map (fun program ↦
        (decide (program.schedule.Allows collidingGraph [0, 2, 1]),
          (program.executeAlong five [0, 2, 1] freshSession).toOption)) =
            some (true, some [number 5, number 5]) := by
    decide +kernel
  have hanswer' : (build collidingGraph referenceRegistry openDevice
      (RuntimeConfig.withStreams {} 1) none freshSession).1.toOption.map (fun single ↦
        (single.execute five never freshSession).1.toOption) =
          some (some [number (-5), number (-5)]) := by
    decide +kernel
  rw [hbuild] at hanswer
  rw [hsingle] at hanswer'
  obtain ⟨hallows, hanswer⟩ := Prod.mk.inj (Option.some.inj hanswer)
  exact ⟨program, store, after, single, store', after', hbuild, hsingle,
    constantsWellFormed_collidingGraph, five_wellFormed, of_decide_eq_true hallows,
    toOption_eq_some_iff.1 hanswer, toOption_eq_some_iff.1 (Option.some.inj hanswer')⟩

/-- Without a cache they agree. -/
theorem streams_agree_collidingGraph : ∃ program store after single store' after',
    build collidingGraph referenceRegistry openDevice
      (RuntimeConfig.withStreams { implCacheCapacity := 0 } 2) none freshSession =
        (.ok program, store, after) ∧
    build collidingGraph referenceRegistry openDevice
      (RuntimeConfig.withStreams { implCacheCapacity := 0 } 1) none freshSession =
        (.ok single, store', after') ∧
    program.schedule.Allows collidingGraph [0, 2, 1] ∧
    SameOutputs (program.executeAlong five [0, 2, 1] freshSession)
      (single.execute five never freshSession).1 := by
  obtain ⟨program, store, after, hbuild⟩ := exists_of_build collidingGraph referenceRegistry
    openDevice (RuntimeConfig.withStreams { implCacheCapacity := 0 } 2) (by decide +kernel)
  obtain ⟨single, store', after', hsingle⟩ := exists_of_build collidingGraph referenceRegistry
    openDevice (RuntimeConfig.withStreams { implCacheCapacity := 0 } 1) (by decide +kernel)
  have hallows : program.schedule.Allows collidingGraph [0, 2, 1] := by
    obtain ⟨_, hfrom, _⟩ := fit_of_build (RuntimeConfig.withStreams _ 2)
      (Registry.exact_of_reference rfl) rfl (.inl rfl) (Registry.trusts_of_reference rfl _) hbuild
    rw [hfrom.schedule_eq]
    decide +kernel
  exact ⟨program, store, after, single, store', after', hbuild, hsingle, hallows,
    (streams_agree rfl rfl constantsWellFormed_collidingGraph (.inl rfl) hbuild hsingle
      five_wellFormed).1 [0, 2, 1] hallows⟩

end Program

end TensorEngine
