import TensorEngine.Proofs.Execution.Runs
import TensorEngine.Proofs.Program.Execute

/-!
# Programs that are held to a standard

A program that is built over implementations that are up to a standard can be executed: every place
has an instance that can be prepared, and what is cached is up to the standard.  Executions keep it
so until one of them poisons the program.
-/

namespace TensorEngine

variable {ι ω : Type} [Implementation ι ω] {standard : Standard ι ω} {graph : Graph}
  {registry : Registry ι} {device : DeviceCaps} {config : RuntimeConfig} {node : Node}
  {declared : List Layout}

/-- What is read back for the nodes of a graph is up to the standard. -/
def Standard.Restores (standard : Standard ι ω) (graph : Graph) (registry : Registry ι)
    (device : DeviceCaps) : Prop :=
  ∀ node ∈ graph.nodes, ∀ {blob : ArtifactBlob} {env env' : ω} {id : DescriptorId}
    {descriptor : Descriptor ι} {form : FinalizedForm} {implementation : ι},
    PrimitiveInstance.ReadsBack blob node (graph.inputLayouts node) registry device env id
      descriptor form implementation env' →
    standard.bound node ⟨id, implementation, false⟩ ∧
      standard.form node form.shapes ⟨⟨id, implementation, false⟩, form⟩

theorem Standard.restores_anything (graph : Graph) (registry : Registry ι) (device : DeviceCaps) :
    (anything ι ω).Restores graph registry device := fun _ _ _ _ _ _ _ _ _ _ ↦ ⟨trivial, trivial⟩

/-! ## Building -/

/-- An instance of a node that can be prepared. -/
structure PrimitiveInstance.UsableFor (standard : Standard ι ω) (graph : Graph) (node : Node)
    (inst : PrimitiveInstance ι) : Prop where
  node_eq : inst.node = node
  declared_eq : inst.declaredInputs = graph.inputLayouts node
  usable : standard.Usable inst

omit [Implementation ι ω] in
/-- Slots play no part in what an instance can be prepared with. -/
theorem Standard.Usable.attachSlots {inst : PrimitiveInstance ι} (h : standard.Usable inst)
    (inputSlots : List Nat) (outputSlot : Nat) :
    standard.Usable (inst.attachSlots inputSlots outputSlot) := by
  cases h with
  | bound hstate hbound hmeets => exact .bound hstate hbound hmeets
  | ready hstate hbound hform hmeets hruns => exact .ready hstate hbound hform hmeets hruns

/-- What is restored or bound for a node can be prepared, if what is bound for it can. -/
theorem BuildState.buildInstance_prepares {state : BuildState ι ω}
    (hfree : ∀ env, standard.environment env)
    (hrestores : standard.Restores graph registry device) (hnode : node ∈ graph.nodes)
    (hbinds : ∀ state : BuildState ι ω, standard.Kept state.workspace →
      let answer := state.bindInstance node (graph.inputLayouts node) ⟨registry, device⟩
      standard.Kept answer.2.workspace ∧ ∀ inst, answer.1 = .ok inst → inst.node = node ∧
        inst.declaredInputs = graph.inputLayouts node ∧ standard.Usable inst)
    (hkept : standard.Kept state.workspace) :
    let answer := state.buildInstance node (graph.inputLayouts node) ⟨registry, device⟩
    standard.Kept answer.2.workspace ∧ ∀ built, answer.1 = .ok built →
      built.1.UsableFor standard graph node := by
  have hrestored : standard.Kept
      (state.restore? node (graph.inputLayouts node) ⟨registry, device⟩).2.workspace :=
    kept_restore? hkept (hfree _)
  rcases state.buildInstance_cases node (graph.inputLayouts node) ⟨registry, device⟩ with
    ⟨inst, state', hrestore, hbuild⟩ | ⟨state', hrestore, hbuild⟩
  · obtain ⟨_, id, _, form, implementation, _, hreads, rfl⟩ :=
      exists_readsBack_of_restore? (congrArg Prod.fst hrestore)
    obtain ⟨hbound, hform⟩ := hrestores node hnode hreads
    rw [hrestore] at hrestored
    rw [hbuild]
    refine ⟨hrestored, fun built hbuilt ↦ ?_⟩
    obtain rfl := Except.ok.inj hbuilt
    refine ⟨rfl, rfl, ?_⟩
    exact @Standard.Usable.ready _ _ _ _ ⟨⟨id, implementation, false⟩, form⟩ rfl rfl rfl hbound
      hform
  · rw [hrestore] at hrestored
    rw [hbuild]
    obtain ⟨hkept', hbound⟩ := hbinds state' hrestored
    refine ⟨hkept', fun built hbuilt ↦ ?_⟩
    obtain ⟨inst, hinst, rfl⟩ := map_eq_ok_iff.1 hbuilt
    obtain ⟨hinstNode, hdeclared, husable⟩ := hbound inst hinst
    exact ⟨hinstNode, hdeclared, husable⟩

namespace Program

variable {program program' : Program ι} {bindings : Bindings} {cancelled : Nat → ω → Bool}
  {session session' : Session ω}

/-- A program whose implementations are up to a standard and whose instances can be prepared, unless
it is poisoned. -/
structure Upheld (standard : Standard ι ω) (program : Program ι) : Prop where
  holds : standard.Holds program.graph program.registry program.device
  runnable : program.poison = none → ∀ session : Session ω,
    (program.executionState session).Upholds standard program.graph program.plan

/-- A program is built with instances that can be prepared, if every step of the build keeps the
standard. -/
theorem runnable_of_build {store after : Option ArtifactStore}
    (hfree : ∀ env, standard.environment env)
    (hcache : config.implCacheCapacity ≠ 0 → standard.enabled)
    (hstep : ∀ node ∈ graph.nodes, ∀ state : BuildState ι ω, standard.Kept state.workspace →
      let answer := state.buildInstance node (graph.inputLayouts node) ⟨registry, device⟩
      standard.Kept answer.2.workspace ∧ ∀ built, answer.1 = .ok built →
        built.1.UsableFor standard graph node)
    (h : build graph registry device config store session = (.ok program, after, session')) :
    (∀ session : Session ω,
      (program.executionState session).Upholds standard program.graph program.plan) ∧
      program.LaidOut (PrimitiveInstance.UsableFor standard graph) ∧
      program.BuiltFrom graph registry device config session.granted := by
  obtain ⟨built, state, hbuilt, hprogram, _⟩ := exists_built h
  obtain ⟨hkept, hinstances⟩ := BuildState.buildInstances_induction graph ⟨registry, device⟩
    (fun state : BuildState ι ω ↦ standard.Kept state.workspace)
    (fun node built ↦ built.1.UsableFor standard graph node) hstep graph.nodes
    (fun _ hnode ↦ hnode) (.start config store session)
    (Standard.kept_ofCapacity? hcache (hfree _))
  rw [hbuilt] at hkept hinstances
  obtain ⟨hlaid, hfrom, hcache'⟩ :
      program.LaidOut (PrimitiveInstance.UsableFor standard graph) ∧
        program.BuiltFrom graph registry device config session.granted ∧
        program.cache = state.workspace.cache :=
    laidOut_of_ofInstances (fun _ _ h ↦ h.node_eq) (hinstances built rfl) hprogram
  refine ⟨fun session ↦ ⟨hlaid.length_instances, fun {p node} hnode ↦ ?_, ?_⟩, hlaid, hfrom⟩
  · obtain ⟨inst, hinst, hplaced⟩ := hlaid.exists_instance hnode
    refine ⟨_, hplaced, ⟨hinst.node_eq, ?_, ⟨rfl, rfl⟩⟩, hinst.usable.attachSlots _ _⟩
    rw [hfrom.graph_eq]
    exact hinst.declared_eq
  · exact ⟨fun hsome ↦ hkept.enabled (hcache' ▸ hsome), hfree _,
      fun cache hsome ↦ hkept.keeps cache (hcache' ▸ hsome)⟩

/-- A program that was built can be executed. -/
theorem upheld_of_build {store after : Option ArtifactStore}
    (hholds : standard.Holds graph registry device) (hfree : ∀ env, standard.environment env)
    (hrestores : standard.Restores graph registry device)
    (hcache : config.implCacheCapacity ≠ 0 → standard.enabled)
    (h : build graph registry device config store session = (.ok program, after, session')) :
    program.Upheld standard ∧
      program.BuiltFrom graph registry device config session.granted := by
  obtain ⟨hrunnable, _, hfrom⟩ := runnable_of_build hfree hcache (fun node hnode _ hkept ↦
    BuildState.buildInstance_prepares hfree hrestores hnode
      (fun _ ↦ BuildState.bindInstance_upheld (hholds.upheld node hnode)) hkept) h
  refine ⟨⟨?_, fun _ ↦ hrunnable⟩, hfrom⟩
  rw [hfrom.graph_eq, hfrom.registry_eq, hfrom.device_eq]
  exact hholds

/-- A program that was built can be executed, whatever its implementations do. -/
theorem upheld_anything_of_build {store after : Option ArtifactStore}
    (h : build graph registry device config store session = (.ok program, after, session')) :
    program.Upheld (.anything ι ω) ∧
      program.BuiltFrom graph registry device config session.granted :=
  upheld_of_build (Standard.holds_anything graph registry device) (fun _ ↦ trivial)
    (Standard.restores_anything graph registry device) (fun _ ↦ trivial) h

/-! ## Executing -/

/-- How an execution goes: the program refuses, the bindings do not fit, the run fails, or the
outputs are read. -/
inductive ExecutesAs (program : Program ι) (bindings : Bindings) (cancelled : Nat → ω → Bool)
    (session : Session ω) :
    Except RuntimeError (List HostTensor) × Program ι × Session ω → Prop
  | poisoned (poison : Poison) (hpoison : program.poison = some poison) :
      ExecutesAs program bindings cancelled session
        (.error (.programPoisoned poison.node poison.reason), program, session)
  | unbound (error : RuntimeError) (hpoison : program.poison = none)
      (hbindings : program.checkBindings bindings = .error error) :
      ExecutesAs program bindings cancelled session (.error error, program, session)
  | failed (error : RuntimeError) (state : ExecutionState ι ω) (hpoison : program.poison = none)
      (hrun : (program.executionState session).run (program.context bindings) cancelled =
        (.error error, state)) :
      ExecutesAs program bindings cancelled session
        (.error error, (program.withState state).afterFailure error, state.workspace.session)
  | completed (state : ExecutionState ι ω) (hpoison : program.poison = none)
      (hrun : (program.executionState session).run (program.context bindings) cancelled =
        (.ok (), state)) :
      ExecutesAs program bindings cancelled session
        (program.graph.outputs.mapM ((program.withState state).readOutput state.extents),
          program.withState state, state.workspace.session)

theorem executesAs (program : Program ι) (bindings : Bindings) (cancelled : Nat → ω → Bool)
    (session : Session ω) : ExecutesAs program bindings cancelled session
      (program.execute bindings cancelled session) := by
  unfold execute
  cases hpoison : program.poison with
  | some poison => exact .poisoned poison hpoison
  | none =>
    cases hbindings : program.checkBindings bindings with
    | error error => exact .unbound error hpoison hbindings
    | ok _ =>
      simp only
      cases hrun : (program.executionState session).run (program.context bindings) cancelled with
      | mk result state =>
        cases result with
        | error error => exact .failed error state hpoison hrun
        | ok _ => exact .completed state hpoison hrun

/-- The run of a program that is up to a standard. -/
theorem Upheld.ends_run (h : program.Upheld standard) (hpoison : program.poison = none)
    (bindings : Bindings) (cancelled : Nat → ω → Bool) (session : Session ω) :
    ExecutionState.Ends standard (program.context bindings) program.plan program.graph.size
      ((program.executionState session).run (program.context bindings) cancelled) := by
  have hbefore : ExecutionState.SettledBefore standard (program.context bindings)
      (program.executionState session) 0 :=
    ⟨List.length_replicate, fun q hq ↦ absurd hq (Nat.not_lt_zero q)⟩
  have hends := ExecutionState.ends_visitAll (program.context bindings) h.holds cancelled
    program.graph.size 0 0 (program.executionState session) (h.runnable hpoison session) hbefore
  rw [Nat.zero_add, ← List.range_eq_range'] at hends
  exact hends

omit [Implementation ι ω] in
/-- What a run leaves can be run again, in any session. -/
theorem upholds_withState {state : ExecutionState ι ω} {plan : MemoryPlan}
    (h : state.Upholds standard graph plan) (hfree : ∀ env, standard.environment env)
    (program : Program ι) (session : Session ω) :
    ((program.withState state).executionState session).Upholds standard graph plan :=
  ⟨h.length_instances, h.exists_instance, ⟨h.kept.enabled, hfree _, h.kept.keeps⟩⟩

/-- An execution leaves a program that is up to the standard. -/
theorem Upheld.execute (h : program.Upheld standard) (hfree : ∀ env, standard.environment env)
    (bindings : Bindings) (cancelled : Nat → ω → Bool) (session : Session ω) :
    (program.execute bindings cancelled session).2.1.Upheld standard := by
  have hexecutes := program.executesAs bindings cancelled session
  generalize program.execute bindings cancelled session = answer at hexecutes
  cases hexecutes with
  | poisoned | unbound => exact h
  | failed error state hpoison hrun =>
    have hends := h.ends_run hpoison bindings cancelled session
    rw [hrun] at hends
    unfold afterFailure
    split
    · exact ⟨h.holds, nofun⟩
    · rename_i hharmless
      exact ⟨h.holds, fun _ session ↦ upholds_withState
        (hends.upholds (harmless_error_iff.2 (Bool.eq_false_iff.2 hharmless))) hfree program
        session⟩
  | completed state hpoison hrun =>
    have hends := h.ends_run hpoison bindings cancelled session
    rw [hrun] at hends
    exact ⟨h.holds, fun _ session ↦ upholds_withState (hends.upholds (harmless_ok ())) hfree program
      session⟩

/-! ## Which failures there are -/

theorem ofRun_checkBindings {error : RuntimeError}
    (h : program.checkBindings bindings = .error error) : error.OfRun := by
  obtain ⟨node, _, h⟩ := forM_eq_error h
  unfold checkBinding at h
  split at h
  · exact Except.error.inj h ▸ trivial
  · split at h
    · exact Except.error.inj h ▸ trivial
    · split at h
      · cases h
      · exact Except.error.inj h ▸ trivial

omit [Implementation ι ω] in
theorem ofRun_slotOf {plan : MemoryPlan} {id : NodeId} {error : RuntimeError}
    (h : plan.slotOf id = .error error) : error.OfRun := by
  unfold MemoryPlan.slotOf at h
  split at h
  · cases h
  · exact Except.error.inj h ▸ trivial

theorem ofCall_readOutput {extents : List (Option Dims)} {id : NodeId} {error : RuntimeError}
    (h : program.readOutput extents id = .error error) : error.OfCall := by
  rcases of_readOutput_eq_error h with ⟨_, rfl⟩ | ⟨_, _, _, _, _, _, rfl⟩ | ⟨_, _, _, rfl⟩ |
    ⟨_, _, _, rfl⟩
  all_goals trivial

omit [Implementation ι ω] in
theorem ofRun_placeAll {plan : MemoryPlan} {instances : List (PrimitiveInstance ι)}
    {error : RuntimeError} : ∀ {pool : MemoryPool},
      PrimitiveInstance.placeAll plan pool instances = .error error → error.OfRun := by
  induction instances with
  | nil => exact nofun
  | cons inst rest ih =>
    intro pool h
    unfold PrimitiveInstance.placeAll at h
    rcases bind_eq_error_iff.1 h with h | ⟨_, _, h⟩
    · unfold PrimitiveInstance.place at h
      rcases bind_eq_error_iff.1 h with h | ⟨_, _, h⟩
      · obtain ⟨_, _, h⟩ := mapM_eq_error h
        exact ofRun_slotOf h
      · rcases bind_eq_error_iff.1 h with h | ⟨_, _, h⟩
        · exact ofRun_slotOf h
        · rcases bind_eq_error_iff.1 h with h | ⟨_, _, h⟩
          · unfold PrimitiveInstance.writeConstant at h
            split at h
            · rcases bind_eq_error_iff.1 h with h | ⟨_, _, h⟩
              · obtain ⟨_, _, rfl⟩ := mapError_eq_error_iff.1 h
                trivial
              · exact PrimitiveInstance.ofRun_copyBinding h
            · cases h
          · cases h
    · rcases bind_eq_error_iff.1 h with h | ⟨_, _, h⟩
      · exact ih h
      · cases h

/-- Laying out the memory of a program fails for reasons of memory and constants only. -/
theorem ofRun_ofInstances {built : List (PrimitiveInstance ι × Bool)}
    {cache : Option (ImplementationCache ι)} {error : RuntimeError}
    {granted : Nat}
    (h : ofInstances graph registry device config built cache granted = .error error) :
    error.OfRun := by
  unfold ofInstances at h
  rcases bind_eq_error_iff.1 h with h | ⟨_, _, h⟩
  · obtain ⟨_, _, rfl⟩ := mapError_eq_error_iff.1 h
    trivial
  · rcases bind_eq_error_iff.1 h with h | ⟨_, _, h⟩
    · obtain ⟨_, _, rfl⟩ := mapError_eq_error_iff.1 h
      trivial
    · rcases bind_eq_error_iff.1 h with h | ⟨_, _, h⟩
      · exact ofRun_placeAll h
      · cases h

/-- Why an execution fails: the program is poisoned, the call was cancelled, an instance could not
be prepared, or one of the reasons of a call. -/
theorem Upheld.blames (h : program.Upheld standard) {error : RuntimeError}
    (herror : (program.execute bindings cancelled session).1 = .error error) :
    error.OfCall ∨ (∃ completed, error = .aborted completed) ∨
      ExecutionState.Unprepared standard (program.context bindings) program.plan error ∨
      ∃ poison, program.poison = some poison ∧
        error = .programPoisoned poison.node poison.reason := by
  have hexecutes := program.executesAs bindings cancelled session
  generalize program.execute bindings cancelled session = answer at herror hexecutes
  cases hexecutes with
  | poisoned poison hpoison =>
    exact .inr (.inr (.inr ⟨poison, hpoison, (Except.error.inj herror).symm⟩))
  | unbound _ _ hbindings =>
    exact .inl (Except.error.inj herror ▸ (ofRun_checkBindings hbindings).ofCall)
  | failed error' state hpoison hrun =>
    have hends := h.ends_run hpoison bindings cancelled session
    rw [hrun] at hends
    obtain rfl := Except.error.inj herror
    rcases hends.blames error' rfl with hrun | haborted | hunprepared
    · exact .inl hrun.ofCall
    · exact .inr (.inl haborted)
    · exact .inr (.inr (.inl hunprepared))
  | completed state hpoison hrun =>
    obtain ⟨_, _, hread⟩ := mapM_eq_error herror
    exact .inl (ofCall_readOutput hread)

end Program

end TensorEngine
