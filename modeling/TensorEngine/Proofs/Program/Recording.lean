import TensorEngine.Proofs.Instance.Records
import TensorEngine.Proofs.Program.Resting

/-!
# Programs over shared plans

Programs are built and executed in an environment in which plans are shared, and shared plans are
never replaced.  So what is on record of the instances of a program stays true for as long as the
program lives, whatever other programs share meanwhile.
-/

namespace TensorEngine

open CatalogueImplementation

variable {graph : Graph} {plan : MemoryPlan} {registry : Registry CatalogueImplementation}
  {device : DeviceCaps} {config : RuntimeConfig} {node : Node} {p : Nat}

theorem Workspace.Recorded.of_cache_eq
    {workspace workspace' : Workspace CatalogueImplementation Environment}
    (h : workspace.Recorded graph registry device) (hcache : workspace'.cache = workspace.cache)
    (hgrows : workspace.environment.plans.Grows workspace'.environment.plans) :
    workspace'.Recorded graph registry device :=
  h.adds (Workspace.adds_of_cache_eq hcache) hgrows fun _ _ ↦ False.elim

/-! ## Executions -/

namespace ExecutionState

variable {standard : Standard CatalogueImplementation Environment}
  {context : ExecutionContext CatalogueImplementation}
  {state : ExecutionState CatalogueImplementation Environment}
  {answer : Except RuntimeError Unit × ExecutionState CatalogueImplementation Environment}

/-- What instances and cache hold is on record. -/
structure Recorded (graph : Graph) (registry : Registry CatalogueImplementation)
    (device : DeviceCaps) (state : ExecutionState CatalogueImplementation Environment) : Prop where
  instances : ∀ inst ∈ state.instances,
    inst.Recorded registry device state.workspace.environment.plans
  cached : state.workspace.Recorded graph registry device

/-- More plans may be shared, and another instance may take the place of one. -/
theorem Recorded.replace (h : state.Recorded graph registry device)
    {inst : PrimitiveInstance CatalogueImplementation} {pool : MemoryPool}
    {extents : List (Option Dims)}
    {workspace : Workspace CatalogueImplementation Environment}
    (hgrows : state.workspace.environment.plans.Grows workspace.environment.plans)
    (hcached : workspace.Recorded graph registry device)
    (hinst : inst.Recorded registry device workspace.environment.plans) :
    Recorded graph registry device ⟨state.instances.set p inst, pool, extents, workspace⟩ := by
  refine ⟨fun other hother ↦ ?_, hcached⟩
  rcases List.mem_or_eq_of_mem_set hother with hmem | rfl
  · exact (h.instances other hmem).grows hgrows
  · exact hinst

/-- Whatever a visit comes to, what instances and cache hold is on record. -/
theorem Visited.recorded (h : Visited standard context plan state p answer)
    (hstate : state.Upholds standard context.graph plan)
    (hrecorded : state.Recorded context.graph context.specialize.registry
      context.specialize.device) :
    answer.2.Recorded context.graph context.specialize.registry context.specialize.device ∧
      state.workspace.environment.plans.Grows answer.2.workspace.environment.plans := by
  have hprepares : ∀ {node : Node} {inst : PrimitiveInstance CatalogueImplementation}
      (shapes : ConcreteShapes), context.graph.nodes[p]? = some node →
      state.instances[p]? = some inst →
      PrimitiveInstance.Records context.graph context.specialize.registry
        context.specialize.device inst state.workspace
        (inst.prepare shapes context.specialize state.workspace) := by
    intro node inst shapes hnode hinst
    obtain ⟨other, hother, hseated, husable⟩ := hstate.exists_instance hnode
    obtain rfl := Option.some.inj (hinst.symm.trans hother)
    exact PrimitiveInstance.records_prepare shapes
      ⟨hseated.node_eq ▸ List.mem_of_getElem? hnode, hseated.node_eq.symm ▸ hseated.declared_eq⟩
      husable.state_eq (hrecorded.instances inst (List.mem_of_getElem? hinst)) hrecorded.cached
  cases h with
  | absent | unfit => exact ⟨hrecorded, .refl _⟩
  | @unprepared node shapes error before inst workspace hnode _ _ _ hinst hprepare =>
    have hrecords := hprepares shapes hnode hinst
    rw [hprepare] at hrecords
    exact ⟨hrecorded.replace hrecords.grows hrecords.cached
      (PrimitiveInstance.recorded_of_failed rfl), hrecords.grows⟩
  | @filled node shapes inst inst' workspace result pool env hnode _ hseated hready _ hfill before
      transition hinst hprepare =>
    have hrecords := hprepares shapes hnode hinst
    rw [hprepare] at hrecords
    have hframe := PrimitiveInstance.fillFrame_fill shapes context.bindings state.pool
      workspace.environment hready.state_eq hseated.placed.outputSlot_eq
    rw [hfill] at hframe
    have hplans : env.plans = workspace.environment.plans := by
      have henvironment := hframe.environment
      dsimp only at henvironment
      rcases henvironment with rfl | ⟨implementation, inputs, outputs, _, rfl⟩
      · rfl
      · exact plans_execute implementation inputs outputs workspace.environment
    have hkept : workspace.environment.plans.Grows
        (workspace.withEnvironment env).environment.plans := by
      show workspace.environment.plans.Grows env.plans
      rw [hplans]
      exact .refl _
    have hgrows := hrecords.grows.trans hkept
    refine ⟨hrecorded.replace hgrows (hrecords.cached.of_cache_eq rfl hkept) ?_, hgrows⟩
    by_cases hharmless : Harmless result
    · obtain ⟨hstate', hbound, hform⟩ := hframe.kept hharmless
      exact (hrecords.recorded.grows hkept).relabel hframe.same.node_eq
        (hstate'.trans hready.state_eq.symm) hbound hform
    · exact PrimitiveInstance.recorded_of_failed (hframe.failed hharmless)

/-- However a run ends, what instances and cache hold is on record. -/
theorem recorded_visitAll (context : ExecutionContext CatalogueImplementation)
    (hholds : standard.Holds context.graph context.specialize.registry context.specialize.device)
    (cancelled : Nat → Environment → Bool) (order : List Nat) :
    ∀ (completed : Nat) (state : ExecutionState CatalogueImplementation Environment),
      state.Upholds standard context.graph plan →
      state.Recorded context.graph context.specialize.registry context.specialize.device →
        let answer := state.visitAll context cancelled completed order
        answer.2.Recorded context.graph context.specialize.registry context.specialize.device ∧
          state.workspace.environment.plans.Grows answer.2.workspace.environment.plans := by
  induction order with
  | nil => exact fun _ state _ hrecorded ↦ ⟨hrecorded, .refl _⟩
  | cons p order ih =>
    intro completed state hstate hrecorded
    unfold visitAll
    split
    · exact ⟨hrecorded, .refl _⟩
    · have hvisited := hstate.visited context hholds p
      have hupholds := hvisited.upholds hholds hstate
      obtain ⟨hrecorded', hgrows⟩ := hvisited.recorded hstate hrecorded
      generalize state.visit context p = answer at hupholds hrecorded' hgrows
      obtain ⟨error | _, state'⟩ := answer
      · exact ⟨hrecorded', hgrows⟩
      · obtain ⟨hrest, hgrows'⟩ := ih (completed + 1) state' (hupholds (harmless_ok _)) hrecorded'
        exact ⟨hrest, hgrows.trans hgrows'⟩

end ExecutionState

/-! ## Building -/

/-- Reading a blob shares plans at most, also when the blob is refused. -/
theorem PrimitiveInstance.grows_ofArtifact (blob : ArtifactBlob) (node : Node)
    (declared : List Layout) (registry : Registry CatalogueImplementation) (device : DeviceCaps)
    (env : Environment) :
    env.plans.Grows (ofArtifact blob node declared registry device env).2.plans := by
  unfold ofArtifact
  split
  · exact .refl _
  · rename_i id descriptor _
    have hgrows := grows_deserialize (descriptor.instantiate node) blob.payload env
    generalize Implementation.deserialize (descriptor.instantiate node) blob.payload env = answer
      at hgrows
    obtain ⟨_ | form, impl, env'⟩ := answer
    · exact hgrows
    · simp only
      split <;> exact hgrows

namespace BuildState

variable {state : BuildState CatalogueImplementation Environment}

theorem grows_restore? (state : BuildState CatalogueImplementation Environment) (node : Node)
    (declared : List Layout) (context : SpecializeContext CatalogueImplementation) :
    state.workspace.environment.plans.Grows
      (state.restore? node declared context).2.workspace.environment.plans := by
  obtain ⟨_, _, hrestores⟩ := state.restore?_spec node declared context
  generalize state.restore? node declared context = answer at hrestores ⊢
  obtain ⟨found, later⟩ := answer
  dsimp only at hrestores ⊢
  generalize later.workspace.environment = env at hrestores ⊢
  cases hrestores with
  | absent => exact .refl _
  | read blob => exact PrimitiveInstance.grows_ofArtifact _ _ _ _ _ _

/-- What is restored is on record. -/
theorem recorded_restore? {inst : PrimitiveInstance CatalogueImplementation}
    (h : (state.restore? node (graph.inputLayouts node) ⟨registry, device⟩).1 = some inst) :
    inst.node = node ∧ inst.Recorded registry device
      (state.restore? node (graph.inputLayouts node)
        ⟨registry, device⟩).2.workspace.environment.plans := by
  obtain ⟨blob, id, descriptor, form, impl, _, hreads, rfl⟩ := exists_readsBack_of_restore? h
  obtain ⟨hop, hbackend, _⟩ := hreads.asks.named
  exact ⟨rfl, PrimitiveInstance.recorded_restored hreads.asks.descriptor_eq
    (hop.trans hreads.fits.op_eq) (hbackend ▸ hreads.fits.enabled) hreads.takes⟩

/-- What building an instance leaves: more shared plans, and an instance and a cache that are on
record. -/
structure Records {α : Type} (graph : Graph) (registry : Registry CatalogueImplementation)
    (device : DeviceCaps) (node : Node) (inst : α → PrimitiveInstance CatalogueImplementation)
    (state : BuildState CatalogueImplementation Environment)
    (answer : Except RuntimeError α × BuildState CatalogueImplementation Environment) : Prop where
  grows : state.workspace.environment.plans.Grows answer.2.workspace.environment.plans
  cached : answer.2.workspace.Recorded graph registry device
  recorded : ∀ a, answer.1 = .ok a → (inst a).node = node ∧
    (inst a).Recorded registry device answer.2.workspace.environment.plans

theorem records_bindInstance (hnode : node ∈ graph.nodes)
    (h : state.workspace.Recorded graph registry device) :
    Records graph registry device node id state
      (state.bindInstance node (graph.inputLayouts node) ⟨registry, device⟩) := by
  have hbinds := state.binds_bindInstance node (graph.inputLayouts node) registry device
  generalize state.bindInstance node (graph.inputLayouts node) ⟨registry, device⟩ = answer at hbinds
  have hrecorded : ∀ {inst : PrimitiveInstance CatalogueImplementation},
      NewlyBound registry device node (graph.inputLayouts node) inst → ∀ table,
        inst.Recorded registry device table := by
    rintro inst ⟨rfl, _, hstate, bound, hbound, hoffers⟩ table
    obtain ⟨descriptor, hstems⟩ := hoffers.exists_stemsFrom
    exact ⟨fun _ ↦ ⟨bound, descriptor, hbound, hstems⟩,
      fun hready ↦ absurd (hstate.symm.trans hready) nofun⟩
  have hrecords : ∀ {inst : PrimitiveInstance CatalogueImplementation} (shapes : ConcreteShapes),
      NewlyBound registry device node (graph.inputLayouts node) inst →
        PrimitiveInstance.Records graph registry device inst state.workspace
          (inst.prepare shapes ⟨registry, device⟩ state.workspace) := fun shapes hnew ↦
    PrimitiveInstance.records_prepare shapes (hnew.of hnode) (.inl hnew.state_eq)
      (hrecorded hnew _) h
  cases hbinds with
  | unmatched => exact ⟨.refl _, h, fun _ h ↦ absurd h error_ne_ok⟩
  | undetermined hnew =>
    refine ⟨.refl _, h, fun built hbuilt ↦ ?_⟩
    obtain rfl := Except.ok.inj hbuilt
    exact ⟨hnew.node_eq, hrecorded hnew _⟩
  | @unprepared _ _ shapes _ _ hnew _ hprepare =>
    have hrecords := hrecords shapes hnew
    rw [hprepare] at hrecords
    exact ⟨hrecords.grows, hrecords.cached, fun _ h ↦ absurd h error_ne_ok⟩
  | @prepared _ _ shapes _ _ hnew _ hprepare =>
    have hrecords := hrecords shapes hnew
    rw [hprepare] at hrecords
    refine ⟨?_, ?_, fun built hbuilt ↦ ?_⟩
    · simp only [workspace_save]
      exact hrecords.grows
    · simp only [workspace_save]
      exact hrecords.cached
    · obtain rfl := Except.ok.inj hbuilt
      simp only [workspace_save]
      exact ⟨hrecords.same.node_eq.trans hnew.node_eq, hrecords.recorded⟩

/-- However an instance is built, it is on record. -/
theorem records_buildInstance (hnode : node ∈ graph.nodes)
    (h : state.workspace.Recorded graph registry device) :
    Records graph registry device node Prod.fst state
      (state.buildInstance node (graph.inputLayouts node) ⟨registry, device⟩) := by
  have hgrows := state.grows_restore? node (graph.inputLayouts node) ⟨registry, device⟩
  obtain ⟨_, hcache, _⟩ := state.restore?_spec node (graph.inputLayouts node) ⟨registry, device⟩
  have hcached := h.of_cache_eq hcache hgrows
  have hrestored : ∀ inst,
      (state.restore? node (graph.inputLayouts node) ⟨registry, device⟩).1 = some inst → _ :=
    fun _ ↦ recorded_restore?
  rcases state.buildInstance_cases node (graph.inputLayouts node) ⟨registry, device⟩ with
    ⟨inst, state', hrestore, hbuild⟩ | ⟨state', hrestore, hbuild⟩
  · rw [hrestore] at hgrows hcached hrestored
    rw [hbuild]
    refine ⟨hgrows, hcached, fun built hbuilt ↦ ?_⟩
    obtain rfl := Except.ok.inj hbuilt
    exact hrestored inst rfl
  · rw [hrestore] at hgrows hcached
    rw [hbuild]
    have hrecords := records_bindInstance hnode hcached
    refine ⟨hgrows.trans hrecords.grows, hrecords.cached, fun built hbuilt ↦ ?_⟩
    obtain ⟨inst, hinst, rfl⟩ := map_eq_ok_iff.1 hbuilt
    exact hrecords.recorded inst hinst

/-- Building instances one after the other keeps all of them on record. -/
theorem records_buildInstances (state : BuildState CatalogueImplementation Environment)
    (h : state.workspace.Recorded graph registry device) :
    let answer := state.buildInstances graph ⟨registry, device⟩ graph.nodes
    state.workspace.environment.plans.Grows answer.2.workspace.environment.plans ∧
      answer.2.workspace.Recorded graph registry device ∧ ∀ built, answer.1 = .ok built →
        List.Forall₂ (fun node built ↦ built.1.node = node ∧
          built.1.Recorded registry device answer.2.workspace.environment.plans)
          graph.nodes built := by
  obtain ⟨⟨hgrows, hcached⟩, hbuilt, _⟩ := buildInstances_stable graph ⟨registry, device⟩
    (fun later ↦
      state.workspace.environment.plans.Grows later.workspace.environment.plans ∧
        later.workspace.Recorded graph registry device)
    (fun later node built ↦ built.1.node = node ∧
      built.1.Recorded registry device later.workspace.environment.plans)
    (fun node hnode later ⟨hgrows, hcached⟩ ↦ by
      have hrecords := records_buildInstance hnode hcached
      exact ⟨⟨hgrows.trans hrecords.grows, hrecords.cached⟩, hrecords.recorded,
        fun other _ built ⟨hsame, hrecorded⟩ ↦ ⟨hsame, hrecorded.grows hrecords.grows⟩⟩)
    graph.nodes (fun _ ↦ id) state ⟨.refl _, h⟩
  exact ⟨hgrows, hcached, hbuilt⟩

end BuildState

/-! ## Programs -/

namespace Program

variable {program : Program CatalogueImplementation} {table table' : PlanTable}
  {store after : Option ArtifactStore} {session session' : Session Environment}
  {bindings : Bindings} {cancelled : Nat → Environment → Bool}

/-- In every session in which at least these plans are shared, what instances and cache of the
program hold is on record. -/
structure Recorded (table : PlanTable) (program : Program CatalogueImplementation) : Prop where
  upheld : program.Upheld (.anything CatalogueImplementation Environment)
  recorded : ∀ session : Session Environment, table.Grows session.environment.plans →
    (program.executionState session).Recorded program.graph program.registry program.device

theorem Recorded.grows (h : program.Recorded table) (hgrows : table.Grows table') :
    program.Recorded table' :=
  ⟨h.upheld, fun session hsession ↦ h.recorded session (hgrows.trans hsession)⟩

/-- A program that was built is on record. -/
theorem recorded_of_build (hcache : config.implCacheCapacity = 0 ∨ graph.SignaturesFaithful)
    (h : build graph registry device config store session = (.ok program, after, session')) :
    program.CompiledFor graph registry device config ∧
      program.Recorded session'.environment.plans := by
  obtain ⟨hupheld, hfrom⟩ := upheld_anything_of_build h
  obtain ⟨built, state, hbuilt, hprogram, rfl⟩ := exists_built h
  obtain ⟨_, hcached, hinstances⟩ := BuildState.records_buildInstances
    (.start config store session : BuildState CatalogueImplementation Environment)
    (Workspace.keepsFor_ofCapacity? hcache)
  rw [hbuilt] at hcached hinstances
  obtain ⟨hlaid, _, hcache'⟩ :
      program.LaidOut (fun node inst ↦ inst.node = node ∧
        inst.Recorded registry device state.workspace.environment.plans) ∧
      program.BuiltFrom graph registry device config session.granted ∧
      program.cache = state.workspace.cache :=
    laidOut_of_ofInstances (fun _ _ h ↦ h.1) (hinstances built rfl) hprogram
  refine ⟨hfrom.compiledFor, hupheld, fun session hgrows ↦ ⟨fun inst hmem ↦ ?_, ?_⟩⟩
  · obtain ⟨node, _, made, inputSlots, outputSlot, ⟨_, hmade⟩, rfl⟩ := hlaid.exists_made hmem
    rw [hfrom.registry_eq, hfrom.device_eq]
    exact (hmade.grows hgrows).relabel rfl rfl rfl rfl
  · rw [hfrom.graph_eq, hfrom.registry_eq, hfrom.device_eq]
    exact hcached.of_cache_eq hcache' hgrows

/-- Building shares plans, also when it fails. -/
theorem grows_build (graph : Graph) (registry : Registry CatalogueImplementation)
    (device : DeviceCaps) (config : RuntimeConfig) (store : Option ArtifactStore)
    (session : Session Environment)
    (hcache : config.implCacheCapacity = 0 ∨ graph.SignaturesFaithful) :
    session.environment.plans.Grows
      (build graph registry device config store session).2.2.environment.plans :=
  (BuildState.records_buildInstances
    (.start config store session : BuildState CatalogueImplementation Environment)
    (Workspace.keepsFor_ofCapacity? hcache)).1

/-- What a run leaves stays on record in later sessions. -/
theorem Recorded.withState (h : program.Recorded session.environment.plans)
    (hpoison : program.poison = none) {result : Except RuntimeError Unit}
    {state : ExecutionState CatalogueImplementation Environment}
    (hrun : (program.executionState session).run (program.context bindings) cancelled =
      (result, state))
    (hgrows : state.workspace.environment.plans.Grows session'.environment.plans) :
    ((program.withState state).executionState session').Recorded program.graph program.registry
      program.device := by
  obtain ⟨hrecorded, _⟩ := ExecutionState.recorded_visitAll (program.context bindings)
    h.upheld.holds cancelled (List.range program.graph.size) 0 (program.executionState session)
    (h.upheld.runnable hpoison session) (h.recorded session (.refl _))
  change ExecutionState.Recorded _ _ _ ((program.executionState session).run
    (program.context bindings) cancelled).2 at hrecorded
  rw [hrun] at hrecorded
  exact ⟨fun inst hmem ↦ (hrecorded.instances inst hmem).grows hgrows,
    hrecorded.cached.of_cache_eq rfl hgrows⟩

/-- An execution leaves a program that is on record. -/
theorem Recorded.execute (h : program.Recorded session.environment.plans) (bindings : Bindings)
    (cancelled : Nat → Environment → Bool) :
    (program.execute bindings cancelled session).2.1.Recorded
      (program.execute bindings cancelled session).2.2.environment.plans := by
  have hupheld := h.upheld.execute (fun _ ↦ trivial) bindings cancelled session
  have hexecutes := program.executesAs bindings cancelled session
  generalize program.execute bindings cancelled session = answer at hupheld hexecutes
  cases hexecutes with
  | poisoned | unbound => exact h
  | failed error state hpoison hrun =>
    refine ⟨hupheld, fun session' hgrows ↦ ?_⟩
    have hrecorded := h.withState hpoison hrun hgrows
    unfold afterFailure
    split <;> exact hrecorded
  | completed state hpoison hrun =>
    exact ⟨hupheld, fun session' hgrows ↦ h.withState hpoison hrun hgrows⟩

/-- The programs that a build and then executions and rebuilds lead to, each with the environment
that it is left in; other programs may share more plans meanwhile. -/
inductive Lives (graph : Graph) (registry : Registry CatalogueImplementation) (device : DeviceCaps)
    (config : RuntimeConfig) : Program CatalogueImplementation → Environment → Prop
  | build {store after : Option ArtifactStore} {session session' : Session Environment}
      {program : Program CatalogueImplementation}
      (h : build graph registry device config store session = (.ok program, after, session')) :
      Lives graph registry device config program session'.environment
  | execute {program : Program CatalogueImplementation} {session : Session Environment}
      (h : Lives graph registry device config program session.environment) (bindings : Bindings)
      (cancelled : Nat → Environment → Bool) :
      Lives graph registry device config (program.execute bindings cancelled session).2.1
        (program.execute bindings cancelled session).2.2.environment
  | rebuild {program : Program CatalogueImplementation} {session : Session Environment}
      (h : Lives graph registry device config program session.environment)
      (store : Option ArtifactStore) :
      Lives graph registry device config (program.rebuild store session).2.1
        (program.rebuild store session).2.2.2.environment
  | meanwhile {program : Program CatalogueImplementation} {env env' : Environment}
      (h : Lives graph registry device config program env) (hgrows : env.plans.Grows env'.plans) :
      Lives graph registry device config program env'

/-- For as long as a program lives, what its instances and its cache hold is on record. -/
theorem Lives.recorded {env : Environment} (h : Lives graph registry device config program env)
    (hcache : config.implCacheCapacity = 0 ∨ graph.SignaturesFaithful) :
    program.CompiledFor graph registry device config ∧ program.Recorded env.plans := by
  induction h with
  | build h => exact recorded_of_build hcache h
  | execute _ bindings cancelled ih =>
    exact ⟨ih.1.execute bindings cancelled _, ih.2.execute bindings cancelled⟩
  | @rebuild before session _ store ih =>
    obtain ⟨⟨hgraph, hregistry, hdevice, hconfig⟩, hrecorded⟩ := ih
    have hgrows := grows_build graph registry device config store session hcache
    unfold Program.rebuild
    rw [hgraph, hregistry, hdevice, hconfig]
    generalize hbuild : Program.build graph registry device config store session = answer
      at hgrows ⊢
    obtain ⟨_ | rebuilt, after, session'⟩ := answer
    · exact ⟨⟨hgraph, hregistry, hdevice, hconfig⟩, hrecorded.grows hgrows⟩
    · exact recorded_of_build hcache hbuild
  | meanwhile _ hgrows ih => exact ⟨ih.1, ih.2.grows hgrows⟩

end Program

end TensorEngine
