import TensorEngine.Proofs.Program.Backends
import TensorEngine.Proofs.Program.Upholding

/-!
# Between two calls

Between two calls no instance is in the middle of anything: it is bound, ready or failed, and the
program is poisoned exactly when one has failed.  This holds along every sequence of executions and
rebuilds, whatever the implementations decline, refuse or break; they need only answer forms for the
extents that they were given.
-/

namespace TensorEngine

variable {ι ω : Type}

/-- The states in which an instance is found between two calls. -/
def InstanceState.Resting (state : InstanceState) : Prop :=
  state = .bound ∨ state = .ready ∨ state = .failed

/-- Implementations answer forms for the extents that they were given. -/
def KeepsShapes (ι ω : Type) [Implementation ι ω] : Prop :=
  ∀ (implementation : ι) (shapes : ConcreteShapes) (op : OpSpec) (env : ω) (form : FinalizedForm),
    (Implementation.finalize implementation shapes op env).1 = .ok form → form.shapes = shapes

/-- The extents of all places in a call: those of the bound value for a parameter, and those that
the operation derives from its operands for any other node. -/
def Graph.Extents (graph : Graph) (bindings : Bindings) (dims : Nat → Dims) : Prop :=
  ∀ (p : Nat) (node : Node), graph.nodes[p]? = some node →
    node.extents? bindings ((graph.producers node).map dims) = some (dims p)

/-! ## Forms for the extents that were asked for -/

/-- Items that are looked up are those of a table. -/
theorem eq_map_of_forall₂ {α β : Type} {f : α → Option β} {xs : List α} {ys : List β}
    (default : β) (h : List.Forall₂ (fun x y ↦ f x = some y) xs ys) :
    ys = xs.map fun x ↦ (f x).getD default := by
  induction h with
  | nil => rfl
  | cons hxy _ ih => rw [List.map_cons, ← ih, hxy, Option.getD_some]

/-- Forms are for the extents that they run on, or are kept under. -/
def Standard.shaped (ι ω : Type) : Standard ι ω where
  enabled := True
  environment _ := True
  bound _ _ := True
  form _ shapes entry := entry.form.shapes = shapes
  cached key entry := entry.form.shapes = key.2

namespace Standard

variable [Implementation ι ω]

theorem shaped_holds (h : KeepsShapes ι ω) (graph : Graph) (registry : Registry ι)
    (device : DeviceCaps) : (shaped ι ω).Holds graph registry device where
  upheld node _ shapes :=
    { candidate := fun _ ↦ trivial
      finalized := fun {bound env} _ _ ↦ ⟨trivial, fun form ↦
        h bound.implementation shapes node.op env form⟩
      keep := fun _ _ ↦ rfl
      hit := fun _ hcached ↦ hcached
      again := fun _ ↦ ⟨trivial, rfl⟩ }
  runs _ _ _ _ _ := trivial

theorem shaped_restores (graph : Graph) (registry : Registry ι) (device : DeviceCaps) :
    (shaped ι ω).Restores graph registry device := fun _ _ _ _ _ _ _ _ _ _ ↦ ⟨trivial, rfl⟩

/-- An instance that can be prepared is bound or ready. -/
theorem Usable.resting {ι ω : Type} {standard : Standard ι ω} {inst : PrimitiveInstance ι}
    (h : standard.Usable inst) : inst.state.Resting := h.state_eq.imp_right .inl

end Standard

namespace Program

variable [Implementation ι ω] {program program' : Program ι} {bindings : Bindings}
  {cancelled : Nat → ω → Bool} {session : Session ω} {graph : Graph} {registry : Registry ι}
  {device : DeviceCaps} {config : RuntimeConfig} {standard : Standard ι ω}

/-- Every instance is bound, ready or failed, and the program is poisoned exactly when one has
failed. -/
structure Rests (program : Program ι) : Prop where
  resting : ∀ inst ∈ program.instances, inst.state.Resting
  poisoned_iff : program.isPoisoned = true ↔ ∃ inst ∈ program.instances, inst.state = .failed

/-- Every place has its instance, ready with a form for the extents of a call. -/
def ReadyFor (program : Program ι) (bindings : Bindings) : Prop :=
  program.instances.length = program.graph.size ∧
    ∃ dims : Nat → Dims, program.graph.Extents bindings dims ∧
      ∀ (p : Nat) (node : Node), program.graph.nodes[p]? = some node →
        ∃ inst form, program.instances[p]? = some inst ∧ inst.node = node ∧
          inst.state = .ready ∧ inst.form = some form ∧
          form.shapes = ⟨(program.graph.producers node).map dims, [dims p]⟩

/-- The programs that executions and rebuilds lead to, each in a session of its own. -/
inductive Evolves (ω : Type) [Implementation ι ω] (program : Program ι) : Program ι → Prop
  | refl : Evolves ω program program
  | execute {program' : Program ι} (h : Evolves ω program program') (bindings : Bindings)
      (cancelled : Nat → ω → Bool) (session : Session ω) :
      Evolves ω program (program'.execute bindings cancelled session).2.1
  | rebuild {program' : Program ι} (h : Evolves ω program program')
      (store : Option ArtifactStore) (session : Session ω) :
      Evolves ω program (program'.rebuild store session).2.1

/-- The program was compiled from a graph for some surroundings. -/
structure CompiledFor (program : Program ι) (graph : Graph) (registry : Registry ι)
    (device : DeviceCaps) (config : RuntimeConfig) : Prop where
  graph_eq : program.graph = graph
  registry_eq : program.registry = registry
  device_eq : program.device = device
  config_eq : program.config = config

omit [Implementation ι ω] in
theorem BuiltFrom.compiledFor {granted : Nat}
    (h : program.BuiltFrom graph registry device config granted) :
    program.CompiledFor graph registry device config :=
  ⟨h.graph_eq, h.registry_eq, h.device_eq, h.config_eq⟩

/-! ## One call -/

omit [Implementation ι ω] in
/-- A program that can be executed rests. -/
theorem rests_of_upholds {state : ExecutionState ι ω} (hpoison : program.poison = none)
    (h : state.Upholds standard graph program.plan)
    (hinstances : state.instances = program.instances) : program.Rests := by
  refine ⟨fun inst hmem ↦ (h.usable (hinstances ▸ hmem)).resting, ?_⟩
  rw [isPoisoned, hpoison]
  constructor
  · exact nofun
  · rintro ⟨inst, hmem, hfailed⟩
    exact absurd hfailed (h.not_failed (hinstances ▸ hmem))

/-- A failed run leaves a program that rests: unless it is harmless, the instance of the visit that
failed has failed and the program is poisoned. -/
theorem Upheld.rests_afterFailure (h : program.Upheld standard) (hpoison : program.poison = none)
    {error : RuntimeError} {state : ExecutionState ι ω}
    (hrun : (program.executionState session).run (program.context bindings) cancelled =
      (.error error, state)) : ((program.withState state).afterFailure error).Rests := by
  have hends := h.ends_run hpoison bindings cancelled session
  rw [hrun] at hends
  cases hpoisons : error.poisonsProgram with
  | false =>
    rw [afterFailure, hpoisons]
    exact rests_of_upholds hpoison (hends.upholds (harmless_error_iff.2 hpoisons)) rfl
  | true =>
    obtain ⟨before, p, node, inst, hupholds, hnode, _, hfailed, hinstances⟩ :=
      hends.failed fun hharmless ↦ by
        rw [harmless_error_iff.1 hharmless] at hpoisons
        cases hpoisons
    have hafter : ((program.withState state).afterFailure error).instances =
        before.instances.set p inst := by
      rw [afterFailure, hpoisons, ← hinstances]
      rfl
    have hplace : p < before.instances.length :=
      hupholds.length_instances ▸ Graph.lt_size hnode
    have hwithState : (program.withState state).poison = none := hpoison
    refine ⟨fun other hmem ↦ ?_, iff_of_true ?_ ⟨inst, ?_, hfailed⟩⟩
    · rw [hafter] at hmem
      rcases List.mem_or_eq_of_mem_set hmem with hmem | rfl
      · exact (hupholds.usable hmem).resting
      · exact .inr (.inr hfailed)
    · rw [isPoisoned, poison_afterFailure error hwithState, hpoisons]
    · rw [hafter]
      exact List.mem_set hplace inst

omit [Implementation ι ω] in
/-- After a run to the end every instance is ready for the extents of the call. -/
theorem readyFor_of_settled {state : ExecutionState ι ω}
    (hupholds : state.Upholds (.shaped ι ω) program.graph program.plan)
    (h : ExecutionState.SettledBefore (.shaped ι ω) (program.context bindings) state
      program.graph.size) : (program.withState state).ReadyFor bindings := by
  refine ⟨hupholds.length_instances, fun q ↦ (state.extents[q]?.join).getD [],
    fun p node hnode ↦ ?_, fun p node hnode ↦ ?_⟩
  · obtain ⟨inputs, dims, _, hinputs, hdims, hextent, _⟩ :=
      h.settled p (Graph.lt_size hnode) node hnode
    rw [eq_map_of_forall₂ [] hinputs] at hdims
    simp only [hextent, Option.getD_some]
    exact hdims
  · obtain ⟨inputs, dims, inst, hinputs, _, hextent, hinst, hready⟩ :=
      h.settled p (Graph.lt_size hnode) node hnode
    obtain ⟨other, hother, hseated, _⟩ := hupholds.exists_instance hnode
    obtain rfl := Option.some.inj (hinst.symm.trans hother)
    obtain ⟨entry, _, hform, hshapes⟩ := hready.entry
    refine ⟨inst, entry.form, hinst, hseated.node_eq, hready.state_eq, hform, hshapes.trans ?_⟩
    rw [eq_map_of_forall₂ [] hinputs]
    simp only [hextent, Option.getD_some]
    rfl

/-- What an execution of a program leaves. -/
theorem Upheld.execute_rests (h : program.Upheld (.shaped ι ω)) (hrests : program.Rests)
    (bindings : Bindings) (cancelled : Nat → ω → Bool) (session : Session ω) :
    let answer := program.execute bindings cancelled session
    answer.2.1.Rests ∧ ∀ outputs, answer.1 = .ok outputs → answer.2.1.ReadyFor bindings := by
  have hexecutes := program.executesAs bindings cancelled session
  generalize program.execute bindings cancelled session = answer at hexecutes
  cases hexecutes with
  | poisoned | unbound => exact ⟨hrests, nofun⟩
  | failed error state hpoison hrun => exact ⟨h.rests_afterFailure hpoison hrun, nofun⟩
  | completed state hpoison hrun =>
    have hends := h.ends_run hpoison bindings cancelled session
    rw [hrun] at hends
    have hupholds := hends.upholds (harmless_ok ())
    exact ⟨rests_of_upholds hpoison hupholds rfl, fun _ _ ↦
      readyFor_of_settled hupholds (hends.settled rfl)⟩

/-- A rebuild leaves the program as it was, or one that rests and is not poisoned. -/
theorem rebuild_cases (program : Program ι) (store : Option ArtifactStore) (session : Session ω) :
    (∃ error, (program.rebuild store session).1 = .error error ∧
      (program.rebuild store session).2.1 = program) ∨
    (program.rebuild store session).1 = .ok () ∧ ∃ after session',
      build program.graph program.registry program.device program.config store session =
        (.ok (program.rebuild store session).2.1, after, session') := by
  unfold rebuild
  generalize build program.graph program.registry program.device program.config store session =
    answer
  obtain ⟨error | rebuilt, after, session'⟩ := answer
  · exact .inl ⟨error, rfl, rfl⟩
  · exact .inr ⟨rfl, after, session', rfl⟩

/-- No execution reports that an instance is not ready. -/
theorem Upheld.execute_ne_notReady (h : program.Upheld standard) (node : NodeId)
    (state : InstanceState) :
    (program.execute bindings cancelled session).1 ≠ .error (.notReady node state) := by
  intro herror
  rcases h.blames herror with hrun | ⟨_, haborted⟩ | hunprepared | ⟨_, _, hpoisoned⟩
  · exact hrun
  · cases haborted
  · exact absurd (hunprepared.poisonsProgram h.holds) nofun
  · cases hpoisoned

/-! ## All calls -/

/-- A program that was built rests and can be executed. -/
theorem rests_of_build {store after : Option ArtifactStore} {session' : Session ω}
    (hshapes : KeepsShapes ι ω)
    (h : build graph registry device config store session = (.ok program, after, session')) :
    program.Upheld (.shaped ι ω) ∧ program.Rests ∧ program.poison = none := by
  obtain ⟨hupheld, hfrom⟩ := upheld_of_build (Standard.shaped_holds hshapes graph registry device)
    (fun _ ↦ trivial) (Standard.shaped_restores graph registry device) (fun _ ↦ trivial) h
  exact ⟨hupheld, rests_of_upholds hfrom.poison_eq (hupheld.runnable hfrom.poison_eq session) rfl,
    hfrom.poison_eq⟩

/-- An execution leaves graph, registry, device and settings alone. -/
theorem CompiledFor.execute (h : program.CompiledFor graph registry device config)
    (bindings : Bindings) (cancelled : Nat → ω → Bool) (session : Session ω) :
    (program.execute bindings cancelled session).2.1.CompiledFor graph registry device config := by
  have hexecutes := program.executesAs bindings cancelled session
  generalize program.execute bindings cancelled session = answer at hexecutes
  obtain ⟨hgraph, hregistry, hdevice, hconfig⟩ := h
  cases hexecutes with
  | poisoned | unbound | completed => exact ⟨hgraph, hregistry, hdevice, hconfig⟩
  | failed =>
    simp only [afterFailure]
    split <;> exact ⟨hgraph, hregistry, hdevice, hconfig⟩

/-- Every call leaves a program for the same graph and surroundings that is up to a standard, if
what is read back from artifacts is. -/
theorem Evolves.upheld (h : program.Evolves ω program')
    (hholds : standard.Holds graph registry device) (hfree : ∀ env, standard.environment env)
    (hrestores : standard.Restores graph registry device)
    (hcache : config.implCacheCapacity ≠ 0 → standard.enabled)
    (hcompiled : program.CompiledFor graph registry device config)
    (hupheld : program.Upheld standard) :
    program'.CompiledFor graph registry device config ∧ program'.Upheld standard := by
  induction h with
  | refl => exact ⟨hcompiled, hupheld⟩
  | execute _ bindings cancelled session ih =>
    exact ⟨ih.1.execute bindings cancelled session,
      ih.2.execute hfree bindings cancelled session⟩
  | @rebuild before _ store session ih =>
    rcases before.rebuild_cases store session with ⟨_, _, hsame⟩ | ⟨_, _, _, hbuild⟩
    · rw [hsame]
      exact ih
    · obtain ⟨⟨hgraph, hregistry, hdevice, hconfig⟩, _⟩ := ih
      rw [hgraph, hregistry, hdevice, hconfig] at hbuild
      obtain ⟨hupheld', hfrom⟩ := upheld_of_build hholds hfree hrestores hcache hbuild
      exact ⟨hfrom.compiledFor, hupheld'⟩

/-- Every call leaves a program for the same graph and surroundings, whatever the implementations
do. -/
theorem Evolves.upheld_anything (h : program.Evolves ω program')
    (hcompiled : program.CompiledFor graph registry device config)
    (hupheld : program.Upheld (.anything ι ω)) :
    program'.CompiledFor graph registry device config ∧ program'.Upheld (.anything ι ω) :=
  h.upheld (Standard.holds_anything graph registry device) (fun _ ↦ trivial)
    (Standard.restores_anything graph registry device) (fun _ ↦ trivial) hcompiled hupheld

/-- Every call leaves a program that rests and can be executed. -/
theorem Evolves.rests (hshapes : KeepsShapes ι ω) (h : program.Evolves ω program')
    (hupheld : program.Upheld (.shaped ι ω)) (hrests : program.Rests) :
    program'.Upheld (.shaped ι ω) ∧ program'.Rests := by
  have hupholds : ∀ {program' : Program ι}, program.Evolves ω program' →
      program'.Upheld (.shaped ι ω) := fun h ↦
    (h.upheld (Standard.shaped_holds hshapes _ _ _) (fun _ ↦ trivial)
      (Standard.shaped_restores _ _ _) (fun _ ↦ trivial) ⟨rfl, rfl, rfl, rfl⟩ hupheld).2
  refine ⟨hupholds h, ?_⟩
  induction h with
  | refl => exact hrests
  | @execute before hbefore bindings cancelled session ih =>
    exact ((hupholds hbefore).execute_rests ih bindings cancelled session).1
  | @rebuild before _ store session ih =>
    rcases before.rebuild_cases store session with ⟨_, _, hsame⟩ | ⟨_, _, _, hbuild⟩
    · rw [hsame]
      exact ih
    · exact (rests_of_build hshapes hbuild).2.1

/-- Along every sequence of calls the program rests.  An execution that answers leaves all instances
ready for its extents; one of a poisoned program changes nothing, and none reports an instance that
is not ready.  A rebuild that fails changes nothing, and one that succeeds clears the poison. -/
theorem evolves_rests {store after : Option ArtifactStore} {session' : Session ω}
    (hshapes : KeepsShapes ι ω)
    (hbuild : build graph registry device config store session = (.ok program, after, session'))
    (h : program.Evolves ω program') :
    program'.Rests ∧
    (∀ (bindings : Bindings) (cancelled : Nat → ω → Bool) (session : Session ω),
      (∀ outputs, (program'.execute bindings cancelled session).1 = .ok outputs →
        (program'.execute bindings cancelled session).2.1.ReadyFor bindings) ∧
      (program'.isPoisoned = true → ∃ node reason,
        program'.execute bindings cancelled session =
          (.error (.programPoisoned node reason), program', session)) ∧
      ∀ node state,
        (program'.execute bindings cancelled session).1 ≠ .error (.notReady node state)) ∧
    ∀ (store : Option ArtifactStore) (session : Session ω),
      (∀ error, (program'.rebuild store session).1 = .error error →
        (program'.rebuild store session).2.1 = program') ∧
      ((program'.rebuild store session).1 = .ok () →
        (program'.rebuild store session).2.1.isPoisoned = false) := by
  obtain ⟨hupheld, hrests, _⟩ := rests_of_build hshapes hbuild
  obtain ⟨hupheld', hrests'⟩ := h.rests hshapes hupheld hrests
  refine ⟨hrests', fun bindings cancelled session ↦ ⟨?_, fun hpoisoned ↦ ?_, fun node state ↦ ?_⟩,
    fun store session ↦ ⟨fun error herror ↦ ?_, fun hok ↦ ?_⟩⟩
  · exact (hupheld'.execute_rests hrests' bindings cancelled session).2
  · obtain ⟨poison, hpoison⟩ := Option.isSome_iff_exists.1 hpoisoned
    refine ⟨poison.node, poison.reason, ?_⟩
    unfold execute
    rw [hpoison]
  · exact hupheld'.execute_ne_notReady node state
  · rcases program'.rebuild_cases store session with ⟨_, _, hsame⟩ | ⟨hok, _⟩
    · exact hsame
    · rw [hok] at herror
      cases herror
  · rcases program'.rebuild_cases store session with ⟨_, herror, _⟩ | ⟨_, _, _, hbuild'⟩
    · rw [herror] at hok
      cases hok
    · obtain ⟨_, _, hpoison⟩ := rests_of_build hshapes hbuild'
      rw [isPoisoned, hpoison]
      rfl

end Program

/-! ## The catalogue -/

namespace CatalogueImplementation

variable {shapes : ConcreteShapes} {op : OpSpec} {form : FinalizedForm}

private theorem shapes_eq_of_reference {impl : ReferenceImplementation}
    (h : (impl.finalize shapes op).1 = .ok form) : form.shapes = shapes := by
  unfold ReferenceImplementation.finalize at h
  cases hform : impl.formFor shapes op with
  | error error =>
    rw [hform] at h
    cases h
  | ok form' =>
    rw [hform] at h
    obtain rfl := Except.ok.inj h
    by_cases hkernel : impl.kernel = .ofOp op
    · exact ((ReferenceImplementation.formFor_eq_ok_iff hkernel).1 hform).2 ▸ rfl
    · unfold ReferenceImplementation.formFor at hform
      simp [Ne.symm hkernel] at hform

/-- All implementations of the catalogue answer forms for the extents that they were given. -/
theorem keepsShapes : KeepsShapes CatalogueImplementation Environment := by
  intro implementation shapes op env form h
  cases implementation with
  | reference impl => exact shapes_eq_of_reference h
  | parallel impl =>
    change (impl.finalize shapes op env.plans).1 = .ok form at h
    unfold ParallelImplementation.finalize at h
    split at h
    · cases h
    · obtain rfl := Except.ok.inj h
      rfl
  | gemm impl =>
    change (impl.finalize shapes op).1 = .ok form at h
    unfold GemmImplementation.finalize at h
    split at h
    · obtain rfl := Except.ok.inj h
      rfl
    · cases h
  | limited impl =>
    obtain rfl := Except.ok.inj h
    rfl
  | failing impl => cases h
  | scripted impl =>
    change (impl.finalize shapes op env.log).1 = .ok form at h
    unfold ScriptedImplementation.finalize at h
    simp only at h
    split at h
    · cases h
    · obtain ⟨_, _, rfl⟩ := map_eq_ok_iff.1 h
      rfl

end CatalogueImplementation

namespace Program

/-- Doubling a matrix within eight bytes, after two numbers were bound. -/
def crampedProgram : Option (Program CatalogueImplementation) :=
  (build doublingGraph referenceRegistry openDevice (RuntimeConfig.withMaxPoolBytes {} 8) none
    freshSession).1.toOption

/-- A program that ran out of memory is poisoned, and rests as all programs do. -/
theorem evolves_rests_crampedProgram : ∃ program program' : Program CatalogueImplementation,
    crampedProgram = some program ∧ program.Evolves Environment program' ∧
    program'.isPoisoned = true ∧ program'.Rests ∧
    (∀ (bindings : Bindings) (cancelled : Nat → Environment → Bool)
      (session : Session Environment),
      (∀ outputs, (program'.execute bindings cancelled session).1 = .ok outputs →
        (program'.execute bindings cancelled session).2.1.ReadyFor bindings) ∧
      (program'.isPoisoned = true → ∃ node reason,
        program'.execute bindings cancelled session =
          (.error (.programPoisoned node reason), program', session)) ∧
      ∀ node state,
        (program'.execute bindings cancelled session).1 ≠ .error (.notReady node state)) ∧
    ∀ (store : Option ArtifactStore) (session : Session Environment),
      (∀ error, (program'.rebuild store session).1 = .error error →
        (program'.rebuild store session).2.1 = program') ∧
      ((program'.rebuild store session).1 = .ok () →
        (program'.rebuild store session).2.1.isPoisoned = false) := by
  have hpoisoned : (crampedProgram.map fun program ↦
      (program.execute (fun _ ↦ some ⟨[1, 2], .f32 #[⟨0x3f800000⟩, ⟨0x40000000⟩]⟩) never
        freshSession).2.1.isPoisoned) = some true := by
    decide +kernel
  obtain ⟨program, hprogram, hpoisoned⟩ := Option.map_eq_some_iff.1 hpoisoned
  have hevolves : program.Evolves Environment _ := .execute .refl
    (fun _ ↦ some ⟨[1, 2], .f32 #[⟨0x3f800000⟩, ⟨0x40000000⟩]⟩) never freshSession
  exact ⟨program, _, hprogram, hevolves, hpoisoned, evolves_rests
    CatalogueImplementation.keepsShapes (Prod.ext (toOption_eq_some_iff.1 hprogram) rfl) hevolves⟩

end Program

end TensorEngine
