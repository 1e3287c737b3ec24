import TensorEngine.Proofs.Program.Makings
import TensorEngine.Proofs.Program.Provision
import TensorEngine.Proofs.Program.Resting

/-!
# What the counts of a program say

The counts of every instance are those of its successful preparations, in the build and in all calls
since: which of them were for other extents than the one before, which of them changed the
descriptor, and which of them were followed by a successful run.  When every operation has a single
descriptor and the cache never gives up a key, forms are made for new extents only.
-/

namespace TensorEngine

variable {ι ω : Type} {graph : Graph} {registry : Registry ι} {device : DeviceCaps}
  {config : RuntimeConfig} {node : Node} {declared : List Layout}

/-! ## Single descriptors -/

namespace Registry

/-- The descriptor is one of the operation of the node. -/
def Runs (registry : Registry ι) (node : Node) (id : DescriptorId) : Prop :=
  ∃ descriptor, registry.descriptor? id = some descriptor ∧ descriptor.op = node.kind

/-- No two descriptors are of one operation. -/
def Single (registry : Registry ι) : Prop := (registry.descriptors.map Descriptor.op).Nodup

theorem Single.eq (h : registry.Single) {a b : DescriptorId} (ha : registry.Runs node a)
    (hb : registry.Runs node b) : a = b := by
  obtain ⟨descriptor, ha, hop⟩ := ha
  obtain ⟨other, hb, hother⟩ := hb
  have hlt : a < registry.descriptors.length := (List.getElem?_eq_some_iff.1 ha).1
  refine (List.getElem?_inj (i := a) (j := b) (by rwa [List.length_map]) h).1 ?_
  rw [List.getElem?_map, List.getElem?_map]
  exact (congrArg (Option.map Descriptor.op) ha).trans
    ((congrArg some (hop.trans hother.symm)).trans (congrArg (Option.map Descriptor.op) hb).symm)

/-- The reference implementations are single. -/
theorem single_of_reference {registry : Registry CatalogueImplementation}
    (h : registry.descriptors = CatalogueImplementation.referenceDescriptors) :
    registry.Single := by
  rw [Single, h]
  decide +kernel

end Registry

namespace Standard

/-- Forms are for the extents that they run on or are kept under; and where signatures tell the
nodes apart, what is bound or kept for a node is of a descriptor of its operation. -/
def ownKind (ι ω : Type) (graph : Graph) (registry : Registry ι) (enabled : Prop) :
    Standard ι ω where
  enabled := enabled
  environment _ := True
  bound node bound := graph.SignaturesFaithful → registry.Runs node bound.descriptor
  form node shapes entry := entry.form.shapes = shapes ∧
    (graph.SignaturesFaithful → registry.Runs node entry.bound.descriptor)
  cached key entry := entry.form.shapes = key.2 ∧ (graph.SignaturesFaithful →
    ∀ node ∈ graph.nodes, node.signature (graph.inputLayouts node) = key.1 →
      registry.Runs node entry.bound.descriptor)

variable [Implementation ι ω]

theorem ownKind_upheld (h : KeepsShapes ι ω) (device : DeviceCaps) (enabled : Prop)
    (hnode : node ∈ graph.nodes) (shapes : ConcreteShapes) :
    (ownKind ι ω graph registry enabled).Upheld registry device node (graph.inputLayouts node)
      shapes where
  candidate hselects _ := ⟨_, hselects.descriptor_eq, hselects.op_eq⟩
  finalized {bound env} hbound _ := ⟨trivial, fun form hform ↦
    ⟨h bound.implementation shapes node.op env form hform, hbound⟩⟩
  keep _ hform := by
    refine ⟨rfl, fun hfaithful other hother hsignature ↦ ?_⟩
    dsimp only at hsignature
    obtain ⟨descriptor, hdescriptor, hop⟩ := hform.2 hfaithful
    refine ⟨descriptor, hdescriptor, hop.trans ?_⟩
    exact (congrArg OpSpec.kind (hfaithful other hother node hnode hsignature).1).symm
  hit _ hcached := by
    refine ⟨hcached.1, fun hfaithful ↦ hcached.2 hfaithful node hnode ?_⟩
    dsimp only
  again hform := ⟨hform.2, rfl, hform.2⟩

theorem ownKind_holds (h : KeepsShapes ι ω) (graph : Graph) (registry : Registry ι)
    (device : DeviceCaps) (enabled : Prop) :
    (ownKind ι ω graph registry enabled).Holds graph registry device where
  upheld _ hnode shapes := ownKind_upheld h device enabled hnode shapes
  runs _ _ _ _ _ := trivial

theorem ownKind_restores (graph : Graph) (registry : Registry ι) (device : DeviceCaps)
    (enabled : Prop) : (ownKind ι ω graph registry enabled).Restores graph registry device := by
  intro node _ blob env env' id descriptor form implementation hreads
  have hruns : registry.Runs node id :=
    ⟨descriptor, hreads.asks.descriptor_eq, hreads.asks.named.1.trans hreads.fits.op_eq⟩
  exact ⟨fun _ ↦ hruns, rfl, fun _ ↦ hruns⟩

end Standard

/-! ## What is kept up to date -/

/-- What the instances of a program count, after the preparations of their places, and what is
cached for them. -/
structure Tracks (graph : Graph) (capacity : Nat) (keeps : Prop)
    (prepared : Nat → List Preparation) (instances : List (PrimitiveInstance ι))
    (cache : Option (ImplementationCache ι)) : Prop where
  length_instances : instances.length = graph.size
  tallied : Tallied prepared instances
  uncached : capacity = 0 → cache = none ∧ ∀ inst ∈ instances, inst.stats.cacheHits = 0
  unrepeated : keeps → ∃ found, cache = some found ∧ Unrepeated graph prepared instances found

namespace ExecutionState

variable [Implementation ι ω] {state : ExecutionState ι ω} {plan : MemoryPlan} {enabled : Prop}

/-- When descriptors are single, an instance may take whatever is cached for it. -/
theorem Upholds.accepts (h : state.Upholds (.ownKind ι ω graph registry enabled) graph plan)
    (hsingle : registry.Single) (hfaithful : graph.SignaturesFaithful)
    {cache : ImplementationCache ι} (hcache : state.workspace.cache = some cache) {p : Nat}
    {inst : PrimitiveInstance ι} (hinst : state.instances[p]? = some inst) :
    ∃ node, graph.nodes[p]? = some node ∧
      inst.signature = node.signature (graph.inputLayouts node) ∧
      ∀ shapes entry, ((inst.signature, shapes), entry) ∈ cache.entries →
        inst.accepts shapes entry = true := by
  have hlt := (List.getElem?_eq_some_iff.1 hinst).1
  rw [h.length_instances] at hlt
  obtain ⟨node, hnode⟩ := graph.exists_node hlt
  obtain ⟨other, hother, hseated, husable⟩ := h.exists_instance hnode
  obtain rfl := Option.some.inj (hinst.symm.trans hother)
  have hsignature : inst.signature = node.signature (graph.inputLayouts node) := by
    rw [PrimitiveInstance.signature, hseated.node_eq, hseated.declared_eq]
  refine ⟨node, hnode, hsignature, fun shapes entry hentry ↦ ?_⟩
  obtain ⟨bound, hbound, hruns⟩ := husable.exists_bound
  have hbound' : registry.Runs node bound.descriptor := hseated.node_eq ▸ hruns hfaithful
  have hentry' : registry.Runs node entry.bound.descriptor := by
    refine (h.kept.keeps cache hcache _ _ hentry).2 hfaithful node (List.mem_of_getElem? hnode) ?_
    dsimp only
    exact hsignature.symm
  have hdescriptor : inst.descriptor? = some entry.bound.descriptor := by
    rw [PrimitiveInstance.descriptor?, hbound, Option.map_some, hsingle.eq hbound' hentry']
  rw [PrimitiveInstance.accepts, decide_eq_true hdescriptor, Bool.or_true]

end ExecutionState

namespace Visit

variable [Implementation ι ω] {visit : Visit ι ω} {plan : MemoryPlan} {enabled keeps : Prop}
  {capacity : Nat} {prepared : Nat → List Preparation}

/-- Every visit is kept track of. -/
theorem tracks (hshapes : KeepsShapes ι ω) (hgraph : visit.context.graph = graph)
    (hregistry : visit.context.specialize.registry = registry)
    (hstate : visit.state.Upholds (.ownKind ι ω graph registry enabled) graph plan)
    (hkeeps : keeps → registry.Single ∧ graph.SignaturesFaithful ∧ visit.Retains)
    (h : Tracks graph capacity keeps prepared visit.state.instances visit.state.workspace.cache) :
    Tracks graph capacity keeps (fun p ↦ prepared p ++ visit.preparedAt p) visit.after.instances
      visit.after.workspace.cache := by
  subst hgraph hregistry
  have hdoes := does_visit
    (Standard.ownKind_holds hshapes visit.context.graph visit.context.specialize.registry
      visit.context.specialize.device enabled) hstate
  have hshaped : ∀ node shapes entry, (Standard.ownKind ι ω visit.context.graph
      visit.context.specialize.registry enabled).form node shapes entry →
        entry.form.shapes = shapes := fun _ _ _ hform ↦ hform.1
  refine ⟨hdoes.length_instances.trans h.length_instances, hdoes.tallied hshaped h.tallied,
    fun hzero ↦ ?_, fun hholds ↦ ?_⟩
  · obtain ⟨hnone, hhits⟩ := h.uncached hzero
    exact hdoes.uncached hnone hhits
  · obtain ⟨hsingle, hfaithful, hretains⟩ := hkeeps hholds
    obtain ⟨cache, hcache, hunrepeated⟩ := h.unrepeated hholds
    exact hdoes.unrepeated hshaped hcache hretains
      (fun inst hinst ↦ hstate.accepts hsingle hfaithful hcache hinst) h.tallied hunrepeated

end Visit

/-! ## Calls -/

/-- An execution that is asked for. -/
structure Invocation (ω : Type) where
  bindings : Bindings
  cancelled : Nat → ω → Bool
  session : Session ω

namespace Program

variable [Implementation ι ω] {program : Program ι} {standard : Standard ι ω}
  {call : Invocation ω} {calls : List (Invocation ω)}
  {Inv : (Nat → List Preparation) → List (PrimitiveInstance ι) →
    Option (ImplementationCache ι) → Prop} {prepared : Nat → List Preparation}

def perform (program : Program ι) (call : Invocation ω) : Program ι :=
  (program.execute call.bindings call.cancelled call.session).2.1

def performAll (program : Program ι) (calls : List (Invocation ω)) : Program ι :=
  calls.foldl perform program

/-- The visits of an execution; there are none when the program refuses or the bindings do not
fit. -/
def visits (program : Program ι) (call : Invocation ω) : List (Visit ι ω) :=
  match program.poison, program.checkBindings call.bindings with
  | none, .ok _ =>
    (program.executionState call.session).visits (program.context call.bindings) call.cancelled 0
      (List.range program.graph.size)
  | _, _ => []

def visitsAlong (program : Program ι) : List (Invocation ω) → List (Visit ι ω)
  | [] => []
  | call :: calls => program.visits call ++ visitsAlong (program.perform call) calls

/-- What every visit keeps up to date is so after an execution. -/
theorem Upheld.trace_perform (h : program.Upheld standard)
    (hstep : ∀ visit ∈ program.visits call, visit.context = program.context call.bindings →
      visit.state.Upholds standard program.graph program.plan → ∀ prepared,
        Inv prepared visit.state.instances visit.state.workspace.cache →
        Inv (fun p ↦ prepared p ++ visit.preparedAt p) visit.after.instances
          visit.after.workspace.cache)
    (hinv : Inv prepared program.instances program.cache) :
    Inv (fun p ↦ prepared p ++ preparedAt (program.visits call) p)
      (program.perform call).instances (program.perform call).cache := by
  have hnone : Inv (fun p ↦ prepared p ++ preparedAt ([] : List (Visit ι ω)) p)
      program.instances program.cache := by
    simpa [preparedAt] using hinv
  unfold visits at hstep ⊢
  unfold perform Program.execute
  cases hpoison : program.poison with
  | some poison => exact hnone
  | none =>
    cases hbindings : program.checkBindings call.bindings with
    | error error => exact hnone
    | ok _ =>
      rw [hpoison, hbindings] at hstep
      have hrun := ExecutionState.trace_visitAll h.holds call.cancelled
        (List.range program.graph.size) 0 (program.executionState call.session) prepared hstep
        (h.runnable hpoison call.session) hinv
      simp only at hrun ⊢
      rw [← run_executionState] at hrun
      generalize (program.executionState call.session).run (program.context call.bindings)
        call.cancelled = answer at hrun ⊢
      obtain ⟨error | _, state⟩ := answer
      · simp only [afterFailure]
        split <;> exact hrun
      · exact hrun

/-- Executions leave graph, registry, device and settings alone. -/
theorem CompiledFor.performAll (calls : List (Invocation ω)) : ∀ {program : Program ι},
    program.CompiledFor graph registry device config →
      (program.performAll calls).CompiledFor graph registry device config := by
  induction calls with
  | nil => exact id
  | cons call calls ih =>
    exact fun h ↦ ih (h.execute call.bindings call.cancelled call.session)

/-- What every visit keeps up to date is so after all executions. -/
theorem Upheld.trace_performAll (hfree : ∀ env, standard.environment env)
    (calls : List (Invocation ω)) :
    ∀ {program : Program ι} {prepared : Nat → List Preparation}, program.Upheld standard →
      program.CompiledFor graph registry device config →
      (∀ visit ∈ program.visitsAlong calls, ∀ plan, visit.context.graph = graph →
        visit.context.specialize = ⟨registry, device⟩ →
        visit.state.Upholds standard graph plan → ∀ prepared,
          Inv prepared visit.state.instances visit.state.workspace.cache →
          Inv (fun p ↦ prepared p ++ visit.preparedAt p) visit.after.instances
            visit.after.workspace.cache) →
      Inv prepared program.instances program.cache →
        Inv (fun p ↦ prepared p ++ preparedAt (program.visitsAlong calls) p)
          (program.performAll calls).instances (program.performAll calls).cache := by
  induction calls with
  | nil =>
    intro program prepared _ _ _ hinv
    simpa [performAll, visitsAlong, preparedAt] using hinv
  | cons call calls ih =>
    intro program prepared h hcompiled hstep hinv
    simp only [visitsAlong, List.forall_mem_append] at hstep
    obtain ⟨hfirst, hlater⟩ := hstep
    have hperformed := h.trace_perform (fun visit hmem hcontext hstate ↦
      hfirst visit hmem program.plan (by rw [hcontext]; exact hcompiled.graph_eq)
        (by rw [hcontext, context, hcompiled.registry_eq, hcompiled.device_eq])
        (hcompiled.graph_eq ▸ hstate)) hinv
    have hupheld : (program.perform call).Upheld standard :=
      h.execute hfree call.bindings call.cancelled call.session
    have hrest := ih hupheld (hcompiled.execute call.bindings call.cancelled call.session) hlater
      hperformed
    simpa only [performAll, List.foldl_cons, visitsAlong, preparedAt, List.flatMap_append,
      ← List.append_assoc] using hrest

/-! ## Statistics -/

/-- The instance at a place of a new program is the one that was built for it, with its slots. -/
theorem exists_built_of_getElem? {built : List (PrimitiveInstance ι × Bool)}
    {cache : Option (ImplementationCache ι)}
    (hbuilt : List.Forall₂ (fun node inst ↦ inst.node = node) graph.nodes (built.map Prod.fst))
    {granted : Nat}
    (h : ofInstances graph registry device config built cache granted = .ok program) {p : Nat}
    {inst : PrimitiveInstance ι} (hinst : program.instances[p]? = some inst) :
    ∃ (made : PrimitiveInstance ι) (inputSlots : List Nat) (outputSlot : Nat),
      (built.map Prod.fst)[p]? = some made ∧ inst = made.attachSlots inputSlots outputSlot := by
  have hplaces : List.Forall₂ (fun node inst ↦ inst.node = node ∧ ∃ q : Nat,
      graph.nodes[q]? = some node ∧ (built.map Prod.fst)[q]? = some inst) graph.nodes
      (built.map Prod.fst) := by
    rw [List.forall₂_iff_get] at hbuilt ⊢
    exact ⟨hbuilt.1, fun q hq hq' ↦ ⟨hbuilt.2 q hq hq', q, List.getElem?_eq_getElem hq,
      List.getElem?_eq_getElem hq'⟩⟩
  obtain ⟨hlaid, hfrom, _⟩ := laidOut_of_ofInstances (fun _ _ h ↦ h.1)
    (List.forall₂_map_right_iff.1 hplaces) h
  obtain rfl := hfrom.graph_eq
  have hlt := (List.getElem?_eq_some_iff.1 hinst).1
  rw [hlaid.length_instances] at hlt
  obtain ⟨node, hnode⟩ := program.graph.exists_node hlt
  obtain ⟨made, ⟨_, q, hq, hmade⟩, hplaced⟩ := hlaid.exists_instance hnode
  obtain rfl := Graph.id_injective hq hnode rfl
  exact ⟨made, _, _, hmade, Option.some.inj (hinst.symm.trans hplaced)⟩

/-- The preparations of the instance of a place in the course of a build. -/
def madeFor (makings : List (Making ι ω)) (p : Nat) : List Preparation :=
  (makings[p]?.bind Making.preparation?).toList

/-- A build without a store is kept track of. -/
theorem tracks_of_build {after : Option ArtifactStore} {session session' : Session ω}
    (hshapes : KeepsShapes ι ω) {keeps : Prop}
    (hkeeps : keeps → config.implCacheCapacity ≠ 0 ∧
      ∀ making ∈ (BuildState.start config none session).makings graph ⟨registry, device⟩
        graph.nodes, making.Retains)
    (hbuild : build graph registry device config none session = (.ok program, after, session')) :
    Tracks graph config.implCacheCapacity keeps
      (madeFor ((BuildState.start config none session).makings graph ⟨registry, device⟩
        graph.nodes)) program.instances program.cache := by
  obtain ⟨built, state, hbuilt, hprogram, _⟩ := exists_built hbuild
  have hmakes := BuildState.makes_of_buildInstances
    (Standard.ownKind_holds hshapes graph registry device True).upheld graph.nodes (fun _ h ↦ h)
    (BuildState.store_start rfl)
    (Standard.kept_ofCapacity? (fun _ ↦ trivial) trivial) (congrArg Prod.fst hbuilt)
  rw [hbuilt] at hmakes
  generalize (BuildState.start config none session).makings graph ⟨registry, device⟩ graph.nodes =
    makings at hkeeps hmakes ⊢
  have hnodes := hmakes.forall₂_node_eq
  obtain ⟨hlaid, hfrom, hcache⟩ := laidOut_of_ofInstances (fun _ _ h ↦ h)
    (List.forall₂_map_right_iff.1 hnodes) hprogram
  have htallies : ∀ {p : Nat} {inst : PrimitiveInstance ι}, program.instances[p]? = some inst →
      ∃ making, makings[p]? = some making ∧ inst.Tallies making.preparation?.toList := by
    intro p inst hinst
    obtain ⟨made, _, _, hmade, rfl⟩ := exists_built_of_getElem? hnodes hprogram hinst
    obtain ⟨making, hmaking, htallies⟩ := hmakes.tallies (fun _ _ _ hform ↦ hform.1) hmade
    exact ⟨making, hmaking, htallies.attachSlots _ _⟩
  refine ⟨hlaid.length_instances.trans (congrArg Graph.size hfrom.graph_eq),
    fun p inst hinst ↦ ?_, fun hzero ↦ ?_, fun hholds ↦ ?_⟩
  · obtain ⟨making, hmaking, htallies⟩ := htallies hinst
    rw [madeFor, hmaking, Option.bind_some]
    exact htallies
  · obtain ⟨hnone, hhits⟩ := hmakes.uncached (if_pos hzero)
    refine ⟨hcache.trans hnone, fun inst hmem ↦ ?_⟩
    obtain ⟨p, hinst⟩ := List.mem_iff_getElem?.1 hmem
    obtain ⟨made, _, _, hmade, rfl⟩ := exists_built_of_getElem? hnodes hprogram hinst
    exact hhits made (List.mem_of_getElem? hmade)
  · obtain ⟨hcapacity, hretains⟩ := hkeeps hholds
    have hstart : (BuildState.start config none session : BuildState ι ω).workspace.cache =
        some ⟨config.implCacheCapacity, [], Nat.zero_le _⟩ := if_neg hcapacity
    obtain ⟨cache, hsome, hroom, _, hkeys⟩ := hmakes.mem_keys (fun _ _ _ hform ↦ hform.1) hstart
      (Nat.pos_of_ne_zero hcapacity) hretains
    refine ⟨cache, hcache.trans hsome, hroom, fun {p node} hnode preparation hmem ↦ ?_,
      fun {p inst} hinst ↦ ?_⟩
    · unfold madeFor at hmem
      cases hmaking : makings[p]? with
      | none =>
        rw [hmaking] at hmem
        cases hmem
      | some making =>
        rw [hmaking] at hmem
        exact hkeys hmaking hnode preparation hmem
    · obtain ⟨making, hmaking, htallies⟩ := htallies hinst
      rw [madeFor, hmaking, Option.bind_some]
      exact Making.finalizations_le htallies.counts

/-- The counts of the instances are exact.  After any calls, an instance has counted its successful
preparations in the build and in the calls: a respecialization for each that was for other extents
than the one before, a form made or taken from the cache for the first and for each
respecialization, a reselection for each change of the descriptor, and a run for each that was
followed by one.  Without a cache nothing is taken from it; and when descriptors are single and the
cache gives up no key, forms are made for new extents only. -/
theorem counts_performAll {after : Option ArtifactStore} {session session' : Session ω}
    (hshapes : KeepsShapes ι ω)
    (hbuild : build graph registry device config none session = (.ok program, after, session'))
    (calls : List (Invocation ω)) {p : Nat} (hnode : graph.nodes[p]? = some node) :
    let makings := (BuildState.start config none session).makings graph ⟨registry, device⟩
      graph.nodes
    let visits := program.visitsAlong calls
    let prepared := madeFor makings p ++ preparedAt visits p
    ∃ inst, (program.performAll calls).instance? node.id = some inst ∧ inst.Counts prepared ∧
      (config.implCacheCapacity = 0 → inst.stats.cacheHits = 0) ∧
      (registry.Single → graph.SignaturesFaithful → config.implCacheCapacity ≠ 0 →
        (∀ making ∈ makings, making.Retains) → (∀ visit ∈ visits, visit.Retains) →
          inst.stats.finalizations ≤ (prepared.map Preparation.shapes).toFinset.card) := by
  intro makings visits prepared
  obtain ⟨hupheld, hfrom⟩ := upheld_of_build
    (Standard.ownKind_holds hshapes graph registry device True) (fun _ ↦ trivial)
    (Standard.ownKind_restores graph registry device True) (fun _ ↦ trivial) hbuild
  have htracks := hupheld.trace_performAll (fun _ ↦ trivial) calls hfrom.compiledFor
    (fun visit hmem _ hgraph hregistry hstate _ htracks ↦
      visit.tracks hshapes hgraph (congrArg SpecializeContext.registry hregistry) hstate
        (fun hkeeps ↦ ⟨hkeeps.1, hkeeps.2.1, hkeeps.2.2.2.2 visit hmem⟩) htracks)
    (tracks_of_build hshapes
      (fun hkeeps : registry.Single ∧ graph.SignaturesFaithful ∧ config.implCacheCapacity ≠ 0 ∧
        (∀ making ∈ makings, making.Retains) ∧ ∀ visit ∈ visits, visit.Retains ↦
          ⟨hkeeps.2.2.1, hkeeps.2.2.2.1⟩) hbuild)
  obtain ⟨inst, hinst⟩ : ∃ inst, (program.performAll calls).instances[p]? = some inst :=
    ⟨_, List.getElem?_eq_getElem (htracks.length_instances ▸ Graph.lt_size hnode)⟩
  have hfound : (program.performAll calls).instance? node.id = some inst := by
    rw [instance?, (hfrom.compiledFor.performAll calls).graph_eq, Graph.position?_id hnode]
    exact hinst
  refine ⟨inst, hfound, (htracks.tallied p inst hinst).counts, fun hzero ↦
    (htracks.uncached hzero).2 inst (List.mem_of_getElem? hinst), ?_⟩
  intro hsingle hfaithful hcapacity hmakings hvisits
  obtain ⟨_, _, hunrepeated⟩ :=
    htracks.unrepeated ⟨hsingle, hfaithful, hcapacity, hmakings, hvisits⟩
  exact hunrepeated.finalizations_le hinst

/-- Three pairs of numbers and one pair, both twice; in between, a call without a value. -/
def revisits : List (Invocation Environment) :=
  [threePairs, onePair, fun _ ↦ none, threePairs, onePair].map fun bindings ↦
    ⟨bindings, never, freshSession⟩
where
  onePair : Bindings := fun _ ↦ some ⟨[1, 2], .i32 #[1, 2]⟩

/-- The preparations of a negation in these calls. -/
def revisited : List Preparation :=
  [⟨⟨[[3, 2]], [[3, 2]]⟩, false, true⟩, ⟨⟨[[1, 2]], [[1, 2]]⟩, false, true⟩,
    ⟨⟨[[3, 2]], [[3, 2]]⟩, false, true⟩, ⟨⟨[[1, 2]], [[1, 2]]⟩, false, true⟩]

/-- Of four preparations of a negation three are for other extents than the one before, and two of
these find their forms in the cache. -/
theorem counts_performAll_pairsGraph : ∃ program store after,
    build pairsGraph referenceRegistry openDevice {} none freshSession =
      (.ok program, store, after) ∧
    ∃ inst, (program.performAll revisits).instance? ⟨2⟩ = some inst ∧ inst.Counts revisited ∧
      inst.stats.respecializations = 3 ∧ inst.stats.finalizations ≤ 2 ∧
      2 ≤ inst.stats.cacheHits ∧ inst.stats.executions = 4 := by
  obtain ⟨program, store, after, hbuild⟩ := exists_of_build pairsGraph referenceRegistry openDevice
    {} (by decide +kernel)
  have hvisits : (build pairsGraph referenceRegistry openDevice {} none
      freshSession).1.toOption.map (fun program ↦ (preparedAt (program.visitsAlong revisits) 2,
        decide (∀ visit ∈ program.visitsAlong revisits, visit.Retains))) =
          some (revisited, true) := by
    decide +kernel
  rw [hbuild] at hvisits
  obtain ⟨hprepared, hretains⟩ := Prod.mk.inj (Option.some.inj hvisits)
  have hmade : madeFor ((BuildState.start {} none freshSession).makings pairsGraph
      ⟨referenceRegistry, openDevice⟩ pairsGraph.nodes) 2 = [] := by
    decide +kernel
  obtain ⟨inst, hinst, hcounts, _, hle⟩ := counts_performAll CatalogueImplementation.keepsShapes
    hbuild revisits (p := 2) rfl
  rw [hmade, hprepared, List.nil_append] at hcounts hle
  have hfinalizations := hle (Registry.single_of_reference rfl) (by decide +kernel)
    (by decide +kernel) (by decide +kernel) (of_decide_eq_true hretains)
  have hchanges : changes (revisited.map Preparation.shapes) = 3 := by decide +kernel
  have hdistinct : (revisited.map Preparation.shapes).toFinset.card = 2 := by decide +kernel
  have hrespecializations := hcounts.respecializations_eq.trans hchanges
  have hacquisitions := hcounts.acquisitions_eq
  rw [hrespecializations, if_neg (show revisited ≠ [] from List.cons_ne_nil _ _)] at hacquisitions
  rw [hdistinct] at hfinalizations
  exact ⟨program, store, after, hbuild, inst, hinst, hcounts, hrespecializations, hfinalizations,
    by omega, hcounts.executions_eq⟩

end Program

end TensorEngine
