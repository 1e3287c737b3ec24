import TensorEngine.Program
import TensorEngine.Proofs.Artifact.Reading
import TensorEngine.Proofs.Artifact.Store
import TensorEngine.Proofs.Instance.Standards

/-!
# Assembling a program

The instances of a program are built one after the other, each either restored from the store or
bound to a selected descriptor.  What every such step keeps is kept by the whole, and what it says
of its instance can be said of all of them.
-/

namespace TensorEngine

variable {ι ω : Type} [Implementation ι ω] {graph : Graph} {node : Node} {declared : List Layout}
  {context : SpecializeContext ι} {inst : PrimitiveInstance ι}

namespace BuildState

variable {state : BuildState ι ω}

/-- The state in which a build starts: an empty cache, and the store when artifacts are in use. -/
abbrev start (config : RuntimeConfig) (store : Option ArtifactStore) (session : Session ω) :
    BuildState ι ω :=
  ⟨if config.artifactCache then store else none,
    ⟨ImplementationCache.ofCapacity? config.implCacheCapacity, session.scope Profile.buildScope⟩⟩

omit [Implementation ι ω] in
theorem store_start {config : RuntimeConfig} {store : Option ArtifactStore} {session : Session ω}
    (h : store = none) : (start config store session : BuildState ι ω).store = none := by
  rw [start, h, ite_self]

/-- An invariant of the state and a property of the instances that later steps keep, from one step
to all of them. -/
theorem buildInstances_stable (graph : Graph) (context : SpecializeContext ι)
    (Inv : BuildState ι ω → Prop)
    (Good : BuildState ι ω → Node → PrimitiveInstance ι × Bool → Prop)
    (hstep : ∀ node ∈ graph.nodes, ∀ state : BuildState ι ω, Inv state →
      let answer := state.buildInstance node (graph.inputLayouts node) context
      Inv answer.2 ∧ (∀ built, answer.1 = .ok built → Good answer.2 node built) ∧
        ∀ other ∈ graph.nodes, ∀ built, Good state other built → Good answer.2 other built)
    (nodes : List Node) (hnodes : ∀ node ∈ nodes, node ∈ graph.nodes) :
    ∀ state : BuildState ι ω, Inv state →
      let answer := state.buildInstances graph context nodes
      Inv answer.2 ∧ (∀ built, answer.1 = .ok built → List.Forall₂ (Good answer.2) nodes built) ∧
        ∀ other ∈ graph.nodes, ∀ built, Good state other built → Good answer.2 other built := by
  induction nodes with
  | nil =>
    refine fun state hinv ↦ ⟨hinv, fun built hbuilt ↦ ?_, fun _ _ _ ↦ id⟩
    obtain rfl := Except.ok.inj hbuilt
    exact .nil
  | cons node nodes ih =>
    intro state hinv
    rw [List.forall_mem_cons] at hnodes
    obtain ⟨hinv', hgood, hkeeps⟩ := hstep node hnodes.1 state hinv
    unfold buildInstances
    generalize state.buildInstance node (graph.inputLayouts node) context = answer
      at hinv' hgood hkeeps
    obtain ⟨result, state'⟩ := answer
    cases result with
    | error error => exact ⟨hinv', fun _ h ↦ absurd h error_ne_ok, hkeeps⟩
    | ok first =>
      obtain ⟨hinv'', hrest, hkeeps'⟩ := ih hnodes.2 state' hinv'
      simp only
      generalize state'.buildInstances graph context nodes = answer at hinv'' hrest hkeeps'
      obtain ⟨result, state''⟩ := answer
      have hstays : ∀ other ∈ graph.nodes, ∀ built, Good state other built →
          Good state'' other built := fun other hother built h ↦
        hkeeps' other hother built (hkeeps other hother built h)
      cases result with
      | error error => exact ⟨hinv'', fun _ h ↦ absurd h error_ne_ok, hstays⟩
      | ok others =>
        refine ⟨hinv'', fun built hbuilt ↦ ?_, hstays⟩
        obtain rfl := Except.ok.inj hbuilt
        exact .cons (hkeeps' node hnodes.1 first (hgood first rfl)) (hrest others rfl)

/-- An invariant of the state and a property of the instances, from one step to all of them. -/
theorem buildInstances_induction (graph : Graph) (context : SpecializeContext ι)
    (Inv : BuildState ι ω → Prop) (Good : Node → PrimitiveInstance ι × Bool → Prop)
    (hstep : ∀ node ∈ graph.nodes, ∀ state : BuildState ι ω, Inv state →
      let answer := state.buildInstance node (graph.inputLayouts node) context
      Inv answer.2 ∧ ∀ built, answer.1 = .ok built → Good node built)
    (nodes : List Node) (hnodes : ∀ node ∈ nodes, node ∈ graph.nodes)
    (state : BuildState ι ω) (hinv : Inv state) :
    let answer := state.buildInstances graph context nodes
    Inv answer.2 ∧ ∀ built, answer.1 = .ok built → List.Forall₂ Good nodes built := by
  have hstable := buildInstances_stable graph context Inv (fun _ ↦ Good) (fun node hnode state h ↦
    ⟨(hstep node hnode state h).1, (hstep node hnode state h).2, fun _ _ _ ↦ id⟩) nodes hnodes
    state hinv
  exact ⟨hstable.1, hstable.2.1⟩

/-- An instance is restored, or bound after nothing could be restored. -/
theorem buildInstance_cases (state : BuildState ι ω) (node : Node) (declared : List Layout)
    (context : SpecializeContext ι) :
    (∃ inst state', state.restore? node declared context = (some inst, state') ∧
      state.buildInstance node declared context = (.ok (inst, true), state')) ∨
    ∃ state', state.restore? node declared context = (none, state') ∧
      state.buildInstance node declared context =
        ((fun inst ↦ (inst, false)) <$> (state'.bindInstance node declared context).1,
          (state'.bindInstance node declared context).2) := by
  unfold buildInstance
  obtain ⟨found, state'⟩ := state.restore? node declared context
  cases found with
  | some inst => exact .inl ⟨inst, state', rfl, rfl⟩
  | none =>
    refine .inr ⟨state', rfl, ?_⟩
    simp only
    generalize state'.bindInstance node declared context = answer
    obtain ⟨result, state''⟩ := answer
    cases result <;> rfl

def artifact? (state : BuildState ι ω) (key : UInt64) : Option ArtifactBlob :=
  state.store.bind fun store ↦ (store.get key).1

omit [Implementation ι ω] in
theorem artifact?_start {config : RuntimeConfig} {store : Option ArtifactStore}
    {session : Session ω} (h : config.artifactCache = true) (key : UInt64) :
    (start config store session : BuildState ι ω).artifact? key =
      store.bind fun store ↦ (store.get key).1 := by
  simp only [artifact?, if_pos h]

/-- What restoring answers: nothing when there is no artifact for the node, and otherwise what
reading it back answers. -/
inductive RestoresAs (state : BuildState ι ω) (node : Node) (declared : List Layout)
    (context : SpecializeContext ι) : Option (PrimitiveInstance ι) → ω → Prop
  | absent (h : state.artifact? (node.signature declared) = none) :
      RestoresAs state node declared context none state.workspace.environment
  | read (blob : ArtifactBlob) (h : state.artifact? (node.signature declared) = some blob) :
      RestoresAs state node declared context
        (PrimitiveInstance.ofArtifact blob node declared context.registry context.device
          state.workspace.environment).1.toOption
        (PrimitiveInstance.ofArtifact blob node declared context.registry context.device
          state.workspace.environment).2

/-- Restoring touches the store as asking for the artifact does, and leaves the cache alone. -/
theorem restore?_spec (state : BuildState ι ω) (node : Node) (declared : List Layout)
    (context : SpecializeContext ι) :
    let answer := state.restore? node declared context
    answer.2.store = state.store.map (fun store ↦ (store.get (node.signature declared)).2) ∧
      answer.2.workspace.cache = state.workspace.cache ∧
      RestoresAs state node declared context answer.1 answer.2.workspace.environment := by
  obtain ⟨_ | store, workspace⟩ := state
  · exact ⟨rfl, rfl, .absent rfl⟩
  · have hartifact : artifact? (⟨some store, workspace⟩ : BuildState ι ω)
        (node.signature declared) = (store.get (node.signature declared)).1 := rfl
    have hread : ∀ blob, artifact? _ (node.signature declared) = some blob →
        RestoresAs ⟨some store, workspace⟩ node declared context _ _ := .read
    have habsent : artifact? _ (node.signature declared) = none →
        RestoresAs ⟨some store, workspace⟩ node declared context _ _ := .absent
    simp only [restore?, Option.map_some]
    rw [hartifact] at hread habsent
    generalize store.get (node.signature declared) = found at hread habsent
    obtain ⟨_ | blob, store'⟩ := found
    · exact ⟨rfl, rfl, habsent rfl⟩
    · replace hread := hread blob rfl
      simp only
      generalize PrimitiveInstance.ofArtifact blob node declared context.registry context.device
        workspace.environment = answer at hread
      obtain ⟨_ | inst, env⟩ := answer <;> exact ⟨rfl, rfl, hread⟩

/-- Restoring keeps a standard, as long as it keeps what that asks of the environment. -/
theorem kept_restore? {standard : Standard ι ω} (hkept : standard.Kept state.workspace)
    (henv : standard.environment (state.restore? node declared context).2.workspace.environment) :
    standard.Kept (state.restore? node declared context).2.workspace := by
  obtain ⟨_, hcache, _⟩ := state.restore?_spec node declared context
  exact ⟨fun hsome ↦ hkept.enabled (hcache ▸ hsome), henv,
    fun cache hsome ↦ hkept.keeps cache (hcache ▸ hsome)⟩

/-- Restoring changes none of the artifacts. -/
theorem artifact?_restore? (state : BuildState ι ω) (node : Node) (declared : List Layout)
    (context : SpecializeContext ι) (key : UInt64) :
    (state.restore? node declared context).2.artifact? key = state.artifact? key := by
  obtain ⟨hstore, _⟩ := state.restore?_spec node declared context
  unfold artifact?
  rw [hstore]
  cases state.store with
  | none => rfl
  | some store => exact store.get_get (node.signature declared) key

/-- When there is an artifact for the node, whatever it is read back as is restored. -/
theorem fst_restore?_of_artifact? {blob : ArtifactBlob}
    (h : state.artifact? (node.signature declared) = some blob) :
    (state.restore? node declared context).1 =
      (PrimitiveInstance.ofArtifact blob node declared context.registry context.device
        state.workspace.environment).1.toOption := by
  obtain ⟨_, _, hrestores⟩ := state.restore?_spec node declared context
  generalize state.restore? node declared context = answer at hrestores ⊢
  generalize answer.2.workspace.environment = env at hrestores
  generalize answer.1 = restored at hrestores ⊢
  cases hrestores with
  | absent hnone =>
    rw [h] at hnone
    cases hnone
  | read other hother =>
    obtain rfl := Option.some.inj (h.symm.trans hother)
    rfl

/-- What is restored was read back from the artifact of the node. -/
theorem exists_readsBack_of_restore?
    (h : (state.restore? node declared context).1 = some inst) :
    ∃ blob id descriptor form implementation,
      state.artifact? (node.signature declared) = some blob ∧
      PrimitiveInstance.ReadsBack blob node declared context.registry context.device
        state.workspace.environment id descriptor form implementation
        (state.restore? node declared context).2.workspace.environment ∧
      inst = .restored node declared id implementation form := by
  obtain ⟨_, _, hrestores⟩ := state.restore?_spec node declared context
  generalize state.restore? node declared context = answer at h hrestores ⊢
  generalize answer.2.workspace.environment = env at hrestores ⊢
  rw [h] at hrestores
  generalize hread : some inst = restored at hrestores
  cases hrestores with
  | absent => cases hread
  | read blob hblob =>
    obtain ⟨id, descriptor, form, implementation, hreads, rfl⟩ :=
      PrimitiveInstance.ofArtifact_eq_ok_iff.1 (Prod.ext (toOption_eq_some_iff.1 hread.symm) rfl)
    exact ⟨blob, id, descriptor, form, implementation, hblob, hreads, rfl⟩

/-- Without a store nothing is restored. -/
theorem restore?_of_store_eq_none (h : state.store = none) :
    state.restore? node declared context = (none, state) := by
  unfold restore?
  rw [h]

/-- An instance that was just bound to a candidate for its node. -/
structure NewlyBound (registry : Registry ι) (device : DeviceCaps) (node : Node)
    (declared : List Layout) (inst : PrimitiveInstance ι) : Prop where
  node_eq : inst.node = node
  declared_eq : inst.declaredInputs = declared
  state_eq : inst.state = .bound
  exists_offer : ∃ bound, inst.bound = some bound ∧ registry.Offers node declared device bound

omit [Implementation ι ω] in
theorem NewlyBound.of {registry : Registry ι} {device : DeviceCaps}
    (h : NewlyBound registry device node (graph.inputLayouts node) inst)
    (hnode : node ∈ graph.nodes) : inst.Of graph := by
  obtain ⟨rfl, hdeclared, _⟩ := h
  exact ⟨hnode, hdeclared⟩

/-- How binding an instance can go: no candidate takes the layouts, some extent is open, or the
instance is prepared for its extents and, when that succeeds, written down. -/
inductive Binds (state : BuildState ι ω) (node : Node) (declared : List Layout)
    (registry : Registry ι) (device : DeviceCaps) :
    Except RuntimeError (PrimitiveInstance ι) × BuildState ι ω → Prop
  | unmatched (hbind : ((PrimitiveInstance.ofNode node declared : PrimitiveInstance ι).bind registry
        device).1 = .error (Registry.incompatible node declared)) :
      Binds state node declared registry device
        (.error (Registry.incompatible node declared), state)
  | undetermined {inst : PrimitiveInstance ι}
      (hnew : NewlyBound registry device node declared inst)
      (hshapes : node.staticShapes? declared = none) :
      Binds state node declared registry device (.ok inst, state)
  | unprepared {inst inst' : PrimitiveInstance ι} {shapes : ConcreteShapes} {error : RuntimeError}
      {workspace : Workspace ι ω} (hnew : NewlyBound registry device node declared inst)
      (hshapes : node.staticShapes? declared = some shapes)
      (hprepare : inst.prepare shapes ⟨registry, device⟩ state.workspace =
        (.error error, inst', workspace)) :
      Binds state node declared registry device (.error error, { state with workspace })
  | prepared {inst inst' : PrimitiveInstance ι} {shapes : ConcreteShapes}
      {transition : Transition} {workspace : Workspace ι ω}
      (hnew : NewlyBound registry device node declared inst)
      (hshapes : node.staticShapes? declared = some shapes)
      (hprepare : inst.prepare shapes ⟨registry, device⟩ state.workspace =
        (.ok transition, inst', workspace)) :
      Binds state node declared registry device
        (.ok inst', { state with workspace }.save inst' ⟨registry, device⟩)

theorem binds_bindInstance (state : BuildState ι ω) (node : Node) (declared : List Layout)
    (registry : Registry ι) (device : DeviceCaps) : Binds state node declared registry device
      (state.bindInstance node declared ⟨registry, device⟩) := by
  unfold bindInstance
  simp only
  cases hbind : (PrimitiveInstance.ofNode node declared : PrimitiveInstance ι).bind registry
    device with
  | mk result inst =>
    cases result with
    | error error =>
      obtain rfl : error = Registry.incompatible node declared := by
        unfold PrimitiveInstance.bind at hbind
        simp only at hbind
        split at hbind
        · cases hbind
        · exact (Except.error.inj (Prod.mk.inj hbind).1).symm
      exact .unmatched (congrArg Prod.fst hbind)
    | ok _ =>
      obtain ⟨selection, descriptor, hselects, rfl⟩ :=
        PrimitiveInstance.exists_selects_of_bind hbind
      simp only
      generalize hinst : ({ PrimitiveInstance.ofNode node declared with
        bound := some _, state := .bound } : PrimitiveInstance ι) = inst
      have hnew : NewlyBound registry device node declared inst :=
        hinst ▸ ⟨rfl, rfl, rfl, _, rfl, .mk hselects⟩
      cases hshapes : node.staticShapes? declared with
      | none => exact .undetermined hnew hshapes
      | some shapes =>
        simp only
        generalize hprepare : inst.prepare shapes ⟨registry, device⟩ state.workspace = answer
        obtain ⟨_ | transition, inst', workspace⟩ := answer
        · exact .unprepared hnew hshapes hprepare
        · exact .prepared hnew hshapes hprepare

/-- When something is restored for every node, all instances are built. -/
theorem buildInstances_of_restore? (graph : Graph) (context : SpecializeContext ι)
    (Inv : BuildState ι ω → Prop) (Good : Node → PrimitiveInstance ι → Prop) (nodes : List Node)
    (hstep : ∀ node ∈ nodes, ∀ state : BuildState ι ω, Inv state →
      let answer := state.restore? node (graph.inputLayouts node) context
      Inv answer.2 ∧ ∃ inst, answer.1 = some inst ∧ Good node inst) :
    ∀ state : BuildState ι ω, Inv state →
      ∃ built state', state.buildInstances graph context nodes = (.ok built, state') ∧
        List.Forall₂ (fun node built ↦ built.2 = true ∧ Good node built.1) nodes built := by
  induction nodes with
  | nil => exact fun state _ ↦ ⟨[], state, rfl, .nil⟩
  | cons node nodes ih =>
    intro state hinv
    rw [List.forall_mem_cons] at hstep
    obtain ⟨hinv', inst, hinst, hgood⟩ := hstep.1 state hinv
    obtain ⟨others, state', hothers, hgoods⟩ := ih hstep.2 _ hinv'
    refine ⟨(inst, true) :: others, state', ?_, .cons ⟨rfl, hgood⟩ hgoods⟩
    unfold buildInstances buildInstance
    generalize state.restore? node (graph.inputLayouts node) context = answer at hinst hothers ⊢
    obtain ⟨_, state₁⟩ := answer
    obtain rfl : _ = some inst := hinst
    simp only [hothers]

/-- Storing an artifact leaves cache and session alone. -/
theorem workspace_save : (state.save inst context).workspace = state.workspace := by
  unfold save
  split <;> rfl

/-- An artifact that was stored is there. -/
theorem artifact?_save_self {blob : ArtifactBlob} (hstore : state.store.isSome = true)
    (h : inst.toArtifact context.registry context.device = .ok blob) :
    (state.save inst context).artifact? inst.signature = some blob := by
  obtain ⟨store, hstore⟩ := Option.isSome_iff_exists.1 hstore
  unfold save artifact?
  rw [h]
  simp only [hstore, Option.map_some, Option.bind_some, store.get_put, if_true]

/-- Storing an artifact changes none of the others. -/
theorem artifact?_save_of_ne {key : UInt64} (h : key ≠ inst.signature) :
    (state.save inst context).artifact? key = state.artifact? key := by
  unfold save
  split
  · unfold artifact?
    cases hstore : state.store with
    | none => simp only [Option.map_none]
    | some store => simp only [Option.map_some, Option.bind_some, store.get_put, if_neg h]
  · rfl

theorem isSome_store_save : (state.save inst context).store.isSome = state.store.isSome := by
  unfold save
  split
  · exact Option.isSome_map
  · rfl

namespace NewlyBound

variable {standard : Standard ι ω} {registry : Registry ι} {device : DeviceCaps}
  {shapes : ConcreteShapes}

theorem usable (h : NewlyBound registry device node declared inst)
    (hupheld : standard.Upheld registry device node declared shapes) : standard.Usable inst := by
  obtain ⟨rfl, _, hstate, _, hbound, ⟨hselects⟩⟩ := h
  exact .bound hstate hbound (hupheld.candidate hselects)

/-- What was just bound is prepared up to any standard for the node. -/
theorem prepares (h : NewlyBound registry device node declared inst)
    (hupheld : standard.Upheld registry device node declared shapes)
    {workspace : Workspace ι ω} (hkept : standard.Kept workspace) :
    standard.Prepares shapes inst (inst.prepare shapes ⟨registry, device⟩ workspace) := by
  have husable := h.usable hupheld
  obtain ⟨rfl, rfl, _⟩ := h
  exact hupheld.prepare husable hkept

end NewlyBound

/-- What is bound for a node and finalized at once can be prepared, if that is so of new instances
and of those that are ready. -/
theorem bindInstance_prepares {standard : Standard ι ω} {registry : Registry ι}
    {device : DeviceCaps}
    (hnew : ∀ inst, NewlyBound registry device node declared inst → standard.Usable inst)
    (hprepares : ∀ inst shapes, NewlyBound registry device node declared inst →
      standard.Prepares shapes inst (inst.prepare shapes ⟨registry, device⟩ state.workspace))
    (hready : ∀ inst shapes, inst.node = node → standard.Ready shapes inst → standard.Usable inst)
    (hkept : standard.Kept state.workspace) :
    let answer := state.bindInstance node declared ⟨registry, device⟩
    standard.Kept answer.2.workspace ∧ ∀ inst, answer.1 = .ok inst →
      inst.node = node ∧ inst.declaredInputs = declared ∧ standard.Usable inst := by
  have hbinds := state.binds_bindInstance node declared registry device
  generalize state.bindInstance node declared ⟨registry, device⟩ = answer at hbinds
  cases hbinds with
  | unmatched => exact ⟨hkept, fun _ h ↦ absurd h error_ne_ok⟩
  | undetermined hbound =>
    refine ⟨hkept, fun built hbuilt ↦ ?_⟩
    obtain rfl := Except.ok.inj hbuilt
    exact ⟨hbound.node_eq, hbound.declared_eq, hnew _ hbound⟩
  | @unprepared _ _ shapes _ _ hbound _ hprepare =>
    have hprepared := hprepares _ shapes hbound
    rw [hprepare] at hprepared
    exact ⟨hprepared.kept, fun _ h ↦ absurd h error_ne_ok⟩
  | @prepared _ _ shapes transition _ hbound _ hprepare =>
    have hprepared := hprepares _ shapes hbound
    rw [hprepare] at hprepared
    refine ⟨?_, fun built hbuilt ↦ ?_⟩
    · simp only [workspace_save]
      exact hprepared.kept
    · obtain rfl := Except.ok.inj hbuilt
      have hnode := hprepared.same.node_eq.trans hbound.node_eq
      exact ⟨hnode, hprepared.same.declared_eq.trans hbound.declared_eq,
        hready _ shapes hnode (hprepared.ready transition rfl)⟩

/-- What is bound for a node and finalized at once is up to any standard for the node. -/
theorem bindInstance_upheld {standard : Standard ι ω} {registry : Registry ι} {device : DeviceCaps}
    (hupheld : ∀ shapes, standard.Upheld registry device node declared shapes)
    (hkept : standard.Kept state.workspace) :
    let answer := state.bindInstance node declared ⟨registry, device⟩
    standard.Kept answer.2.workspace ∧ ∀ inst, answer.1 = .ok inst →
      inst.node = node ∧ inst.declaredInputs = declared ∧ standard.Usable inst :=
  bindInstance_prepares (fun _ hnew ↦ hnew.usable (hupheld default))
    (fun _ shapes hnew ↦ hnew.prepares (hupheld shapes) hkept)
    (fun _ shapes hnode hready ↦ hready.usable (hnode ▸ hupheld shapes)) hkept

/-- Without a store nothing is stored. -/
theorem store_save (h : state.store = none) : (state.save inst context).store = none := by
  unfold save
  split
  · simp only [h, Option.map_none]
  · exact h

theorem store_bindInstance (h : state.store = none) :
    (state.bindInstance node declared context).2.store = none := by
  have hbinds := state.binds_bindInstance node declared context.registry context.device
  generalize state.bindInstance node declared context = answer at hbinds
  cases hbinds with
  | unmatched | undetermined | unprepared => exact h
  | prepared => exact store_save h

/-- No store appears out of nowhere. -/
theorem store_buildInstance (h : state.store = none) :
    (state.buildInstance node declared context).2.store = none := by
  rcases state.buildInstance_cases node declared context with ⟨_, _, hrestore, _⟩ |
    ⟨state', hrestore, hbuild⟩
  · rw [restore?_of_store_eq_none h] at hrestore
    cases hrestore
  · rw [restore?_of_store_eq_none h] at hrestore
    obtain rfl := (Prod.mk.inj hrestore).2
    rw [hbuild]
    exact store_bindInstance h

end BuildState

namespace Program

variable {program : Program ι} {registry : Registry ι} {device : DeviceCaps}
  {config : RuntimeConfig} {store after : Option ArtifactStore} {session session' : Session ω}

/-- Building succeeds when all instances are built and their memory is laid out. -/
theorem build_eq_ok_iff : build graph registry device config store session =
      (.ok program, after, session') ↔
    ∃ built state, (BuildState.start config store session).buildInstances graph
        ⟨registry, device⟩ graph.nodes = (.ok built, state) ∧
      ofInstances graph registry device config built state.workspace.cache session.granted =
        .ok program ∧
      after = (if config.artifactCache then state.store else store) ∧
      session' = state.workspace.session := by
  simp only [build, BuildState.start]
  generalize BuildState.buildInstances (_ : BuildState ι ω) graph ⟨registry, device⟩ graph.nodes =
    answer
  obtain ⟨result, state⟩ := answer
  constructor
  · intro h
    simp only [Prod.mk.injEq] at h
    obtain ⟨h, rfl, rfl⟩ := h
    obtain ⟨built, rfl, h⟩ := bind_eq_ok_iff.1 h
    exact ⟨built, state, rfl, h, rfl, rfl⟩
  · rintro ⟨built, state', hbuilt, h, rfl, rfl⟩
    obtain ⟨rfl, rfl⟩ := Prod.mk.inj hbuilt
    exact Prod.ext h rfl

/-- A program is made of the instances that were built. -/
theorem exists_built (h : build graph registry device config store session =
      (.ok program, after, session')) :
    ∃ built state, (BuildState.start config store session).buildInstances graph
        ⟨registry, device⟩ graph.nodes = (.ok built, state) ∧
      ofInstances graph registry device config built state.workspace.cache session.granted =
        .ok program ∧
      session' = state.workspace.session := by
  obtain ⟨built, state, hbuilt, hprogram, _, hsession⟩ := build_eq_ok_iff.1 h
  exact ⟨built, state, hbuilt, hprogram, hsession⟩

end Program

end TensorEngine
