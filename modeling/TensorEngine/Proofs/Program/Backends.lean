import TensorEngine.Proofs.Program.Execute
import Mathlib

/-!
# Backends are invisible

Two programs of one graph, one over the reference implementations without a cache and the other
over more implementations with a cache of any size, cannot be told apart by executing them.  They
may be bound to different implementations at every place and at every time, but both do to their
slots what the reference kernels do, so their slots are equal before every call.
-/

namespace TensorEngine

open CatalogueImplementation

namespace Program

/-- What a list of executions answers, call by call, and whether the program is poisoned after
each call. -/
def history {ι ω : Type} [Implementation ι ω] (program : Program ι) (session : Session ω) :
    List Bindings → List (Except RuntimeError (List HostTensor) × Bool)
  | [] => []
  | bindings :: rest =>
    let (result, program, session) := program.execute bindings never session
    (result, program.isPoisoned) :: program.history session rest

/-- The same outputs or failures of the same kind, and the same state of health. -/
def SameAnswer (a b : Except RuntimeError (List HostTensor) × Bool) : Prop :=
  a.1.mapError RuntimeError.name = b.1.mapError RuntimeError.name ∧ a.2 = b.2

/-- Two programs that no execution can tell apart. -/
structure Alike (a b : Program CatalogueImplementation) : Prop where
  fit_left : a.Fit
  fit_right : b.Fit
  graph_eq : a.graph = b.graph
  plan_eq : a.plan = b.plan
  poison_iff : a.poison = none ↔ b.poison = none
  pool_eq : a.poison = none → a.pool = b.pool

variable {a b : Program CatalogueImplementation} {bindings : Bindings}
  {session session' : Session Environment}

theorem readOutput_congr (hgraph : a.graph = b.graph) (hplan : a.plan = b.plan)
    (hpool : a.pool = b.pool) : a.readOutput = b.readOutput := by
  funext extents id
  simp only [readOutput, hgraph, hplan, hpool]

theorem Alike.slots_eq (h : Alike a b) (hpoison : a.poison = none) : a.slots = b.slots := by
  rw [slots, slots, h.graph_eq, h.pool_eq hpoison]

theorem Alike.slotRun_eq (h : Alike a b) (hpoison : a.poison = none) :
    a.slotRun bindings = b.slotRun bindings := by
  rw [slotRun, slotRun, h.slots_eq hpoison, h.graph_eq, h.plan_eq]
  exact Slots.visitAll_congr (a.context bindings) (b.context bindings)
    h.graph_eq rfl

/-- One call cannot tell them apart, and leaves programs that the next one cannot tell apart
either. -/
theorem Alike.execute (h : Alike a b) (bindings : Bindings)
    (htrusts : a.poison = none → a.registry.Trusts session.environment)
    (htrusts' : b.poison = none → b.registry.Trusts session'.environment) :
    let answer := a.execute bindings never session
    let answer' := b.execute bindings never session'
    Alike answer.2.1 answer'.2.1 ∧
      answer.1.mapError RuntimeError.name = answer'.1.mapError RuntimeError.name ∧
      (answer.2.1.poison = none → answer.2.1.registry.Trusts answer.2.2.environment) ∧
      (answer'.2.1.poison = none → answer'.2.1.registry.Trusts answer'.2.2.environment) := by
  cases hpoison : a.poison with
  | some poison =>
    obtain ⟨poison', hpoison'⟩ : ∃ poison', b.poison = some poison' := by
      rw [← Option.ne_none_iff_exists', ne_eq, ← h.poison_iff, hpoison]
      nofun
    simp only [Program.execute, hpoison, hpoison']
    refine ⟨⟨h.fit_left, h.fit_right, h.graph_eq, h.plan_eq, h.poison_iff, h.pool_eq⟩, rfl,
      fun hnone ↦ absurd hnone (Option.some_ne_none poison),
      fun hnone ↦ absurd hnone (Option.some_ne_none poison')⟩
  | none =>
    have hpoison' := h.poison_iff.1 hpoison
    obtain ⟨hfit, hsame, hagain⟩ := h.fit_left.execute bindings never session
      (htrusts hpoison)
    obtain ⟨hfit', hsame', hagain'⟩ := h.fit_right.execute bindings never session'
      (htrusts' hpoison')
    have hgraph := hsame.graph_eq.trans (h.graph_eq.trans hsame'.graph_eq.symm)
    have hplan := hsame.plan_eq.trans (h.plan_eq.trans hsame'.plan_eq.symm)
    rw [← hsame.registry_eq] at hagain
    rw [← hsame'.registry_eq] at hagain'
    cases hbindings : a.checkBindings bindings with
    | error error =>
      have hbindings' := (checkBindings_congr h.graph_eq.symm bindings).trans hbindings
      have hstays : a.execute bindings never session = (.error error, a, session) := by
        simp only [Program.execute, hpoison, hbindings]
      have hstays' : b.execute bindings never session' = (.error error, b, session') := by
        simp only [Program.execute, hpoison', hbindings']
      rw [hstays, hstays']
      exact ⟨h, rfl, htrusts, htrusts'⟩
    | ok _ =>
      have hbindings' := (checkBindings_congr h.graph_eq.symm bindings).trans hbindings
      obtain ⟨hpool, hiff, hresult⟩ := h.fit_left.execute_never hpoison (htrusts hpoison) hbindings
      obtain ⟨hpool', hiff', hresult'⟩ :=
        h.fit_right.execute_never hpoison' (htrusts' hpoison') hbindings'
      rw [h.slotRun_eq hpoison] at hpool hiff hresult
      refine ⟨⟨hfit, hfit', hgraph, hplan, hiff.trans hiff'.symm,
        fun _ ↦ hpool.trans hpool'.symm⟩, ?_, hagain, hagain'⟩
      have hread : (a.withPool (b.slotRun bindings).2.pool).readOutput =
          (b.withPool (b.slotRun bindings).2.pool).readOutput :=
        readOutput_congr h.graph_eq h.plan_eq rfl
      rw [hresult, hresult', h.graph_eq, hread]

theorem Alike.history (h : Alike a b)
    (htrusts : a.poison = none → a.registry.Trusts session.environment)
    (htrusts' : b.poison = none → b.registry.Trusts session'.environment) (calls : List Bindings) :
    List.Forall₂ SameAnswer (a.history session calls) (b.history session' calls) := by
  induction calls generalizing a b session session' with
  | nil => exact .nil
  | cons bindings calls ih =>
    obtain ⟨halike, hresult, hagain, hagain'⟩ := h.execute bindings htrusts htrusts'
    refine .cons ⟨hresult, ?_⟩ (ih halike hagain hagain')
    have hpoisoned : ∀ program : Program CatalogueImplementation,
        program.isPoisoned = true ↔ ¬ program.poison = none := fun _ ↦ Option.isSome_iff_ne_none
    exact Bool.eq_iff_iff.2 ((hpoisoned _).trans
      ((not_congr halike.poison_iff).trans (hpoisoned _).symm))

/-- Which implementations are at hand and what is cached is invisible: a program over the
reference implementations without a cache and one over any further implementations that compute
the same, with any cache, answer every list of calls alike.  Plans that were shared before have to
be compiled ones; none are in a new session, and no build or execution shares any others.  The host
grants both programs the same memory. -/
theorem history_sameAnswer {graph : Graph} {device : DeviceCaps} {config : RuntimeConfig}
    {reference registry : Registry CatalogueImplementation}
    {program program' : Program CatalogueImplementation} {store store' : Option ArtifactStore}
    {session session' after after' : Session Environment}
    (hreference : reference.descriptors = referenceDescriptors)
    (hincludes : ∀ descriptor ∈ referenceDescriptors, descriptor ∈ registry.descriptors)
    (hexact : ∀ descriptor ∈ registry.descriptors,
      descriptor ∈ referenceDescriptors ++ parallelDescriptors ++ [limitedDescriptor])
    (hdevice : ∀ backend, device.enables backend = true)
    (hsignatures : graph.SignaturesFaithful) (hplans : session'.environment.plans.Compiled)
    (hgranted : session'.granted = session.granted)
    (hbuild : build graph reference device (config.withImplCacheCapacity 0) none session =
      (.ok program, store, after))
    (hbuild' : build graph registry device config none session' = (.ok program', store', after'))
    (calls : List Bindings) :
    List.Forall₂ SameAnswer (program.history after calls) (program'.history after' calls) := by
  obtain ⟨hfit, hfrom, htrusts⟩ := fit_of_build (config.withImplCacheCapacity 0)
    (Registry.exact_of_reference hreference) (hdevice .reference) (.inl rfl)
    (Registry.trusts_of_reference hreference _) hbuild
  obtain ⟨hfit', hfrom', htrusts'⟩ := fit_of_build config ⟨hincludes, hexact⟩ (hdevice .reference)
    (.inr hsignatures) (.inr hplans.runnable) hbuild'
  rw [← hfrom.registry_eq] at htrusts
  rw [← hfrom'.registry_eq] at htrusts'
  have hplan : program.plan = program'.plan :=
    Except.ok.inj (hfrom.plan_eq.symm.trans hfrom'.plan_eq)
  have hpool := hfrom.pool_eq
  rw [hplan, ← hgranted] at hpool
  have halike : Alike program program' := by
    refine ⟨hfit, hfit', hfrom.graph_eq.trans hfrom'.graph_eq.symm, hplan, ?_, fun _ ↦
      Except.ok.inj (hpool.symm.trans hfrom'.pool_eq)⟩
    rw [hfrom.poison_eq, hfrom'.poison_eq]
  exact halike.history (fun _ ↦ htrusts) (fun _ ↦ htrusts') calls

/-- The registry of the reference, the parallel and the bounded implementations. -/
def mixedRegistry : Registry CatalogueImplementation where
  descriptors := referenceDescriptors ++ parallelDescriptors ++ [limitedDescriptor]
  distinct := by decide +kernel
  complete := by decide +kernel

/-- A matrix of floating-point numbers of any extents, doubled. -/
def doublingGraph : Graph where
  nodes := [
    ⟨⟨0⟩, .parameter, [], [⟨⟨[.unbounded, .unbounded]⟩, .f32, .rowMajor⟩]⟩,
    ⟨⟨1⟩, .binary .add, [⟨0⟩, ⟨0⟩], [⟨⟨[.unbounded, .unbounded]⟩, .f32, .rowMajor⟩]⟩]
  outputs := [⟨1⟩]
  valid := by rfl

/-- The numbers one and two, first side by side and then one below the other. -/
def twoCalls : List Bindings :=
  [fun _ ↦ some ⟨[1, 2], .f32 #[⟨0x3f800000⟩, ⟨0x40000000⟩]⟩,
    fun _ ↦ some ⟨[2, 1], .f32 #[⟨0x3f800000⟩, ⟨0x40000000⟩]⟩]

/-- Programs that double matrices answer alike, also when the extents change. -/
theorem history_sameAnswer_doublingGraph : ∃ program store after program' store' after',
    build doublingGraph referenceRegistry openDevice (RuntimeConfig.withImplCacheCapacity {} 0)
      none freshSession = (.ok program, store, after) ∧
    build doublingGraph mixedRegistry openDevice {} none freshSession =
      (.ok program', store', after') ∧
    List.Forall₂ SameAnswer (program.history after twoCalls)
      (program'.history after' twoCalls) := by
  obtain ⟨program, store, after, hbuild⟩ := exists_of_build doublingGraph referenceRegistry
    openDevice (RuntimeConfig.withImplCacheCapacity {} 0) (by decide +kernel)
  obtain ⟨program', store', after', hbuild'⟩ := exists_of_build doublingGraph mixedRegistry
    openDevice {} (by cbv)
  refine ⟨program, store, after, program', store', after', hbuild, hbuild', ?_⟩
  exact history_sameAnswer rfl
    (fun _ hmem ↦ List.mem_append_left _ (List.mem_append_left _ hmem)) (fun _ hmem ↦ hmem)
    (fun backend ↦ by cases backend <;> rfl) (by decide +kernel)
    (fun _ hmem ↦ absurd hmem List.not_mem_nil) rfl hbuild hbuild' twoCalls

end Program

end TensorEngine
