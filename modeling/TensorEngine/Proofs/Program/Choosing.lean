import TensorEngine.Proofs.Instance.Searching
import TensorEngine.Proofs.Operation.Acceptance
import TensorEngine.Proofs.Program.Upholding

/-!
# The implementation that is chosen

A build without a store binds every node to the best candidate that works for it: that takes the
declared layouts and, when all extents are known, can be finalized for them.  The nodes that were
built before play no part, although they share a cache: a form in it is that of a candidate that
works, and while what is bound takes the extents only a form of its own is taken over.  So a build
fails at the first node for which no candidate works.
-/

namespace TensorEngine

variable {ι ω : Type} [Implementation ι ω] {graph : Graph} {registry : Registry ι}
  {device : DeviceCaps} {node other : Node} {declared : List Layout} {shapes : ConcreteShapes}
  {descriptor : Descriptor ι}

/-! ## Declared extents -/

/-- The declared shape of a constant is that of its value. -/
def Node.DeclaresValue (node : Node) : Prop :=
  ∀ tensor, node.op = .constant tensor → node.output.shape = .ofDims tensor.dims

/-- Pinning layouts to the extents that they declare changes nothing. -/
theorem ConcreteShapes.pin_eq {layouts : List Layout} {dims : List Dims}
    (h : List.Forall₂ (fun layout dims ↦ layout.shape = .ofDims dims) layouts dims) :
    pin layouts dims = layouts := by
  induction h with
  | nil => rfl
  | @cons layout dims _ _ hlayout _ ih =>
    have hfirst : layout.concretize dims = layout := by rw [Layout.concretize, ← hlayout]
    exact congrArg₂ List.cons hfirst ih

/-- Where all extents are declared, the extents of the build are those. -/
theorem Node.pin_staticShapes? (hout : node.outputs = [node.output]) (hvalue : node.DeclaresValue)
    (h : node.staticShapes? declared = some shapes) :
    ConcreteShapes.pin declared shapes.inputs = declared ∧
      ConcreteShapes.pin node.outputs shapes.outputs = node.outputs := by
  unfold staticShapes? at h
  obtain ⟨inputs, hinputs, h⟩ := Option.bind_eq_some_iff.1 h
  obtain ⟨dims, hshape, rfl⟩ : ∃ dims, node.output.shape = .ofDims dims ∧
      shapes = ⟨inputs, [dims]⟩ := by
    split at h
    · rename_i tensor hop
      exact ⟨tensor.dims, hvalue tensor hop, (Option.some.inj h).symm⟩
    · obtain ⟨dims, hdims, h⟩ := Option.bind_eq_some_iff.1 h
      exact ⟨dims, Shape.staticDims?_eq_some_iff.1 hdims, (Option.some.inj h).symm⟩
  constructor
  · exact ConcreteShapes.pin_eq ((mapM_eq_some_iff.1 hinputs).imp fun _ _ hlayout ↦
      Shape.staticDims?_eq_some_iff.1 hlayout)
  · rw [hout]
    exact ConcreteShapes.pin_eq (.cons hshape .nil)

/-- The extents of a build depend on the operation and the declared layouts only. -/
theorem Node.staticShapes?_congr (hop : node.op = other.op) (hout : node.outputs = other.outputs)
    (declared : List Layout) : node.staticShapes? declared = other.staticShapes? declared := by
  unfold staticShapes? output
  rw [hop, hout]

omit [Implementation ι ω] in
/-- The candidates for a node depend on its operation and the declared layouts only. -/
theorem Registry.selections_congr (hop : node.op = other.op) (hout : node.outputs = other.outputs)
    (declared : List Layout) :
    registry.selections node declared device = registry.selections other declared device := by
  unfold selections enabled Node.kind
  rw [hop, hout]

/-! ## What works -/

/-- New implementations work for a node: they take the declared layouts and, when all extents are
known, can be finalized for them. -/
structure Descriptor.Works (descriptor : Descriptor ι) (node : Node) (declared : List Layout) :
    Prop where
  takes : descriptor.Takes node declared node.outputs
  finalizes : ∀ shapes, node.staticShapes? declared = some shapes →
    descriptor.Finalizes node shapes

namespace Registry

/-- A node can be built: some candidate takes the declared layouts and, when all extents are known,
some candidate takes them and can be finalized for them. -/
structure Serves (registry : Registry ι) (node : Node) (declared : List Layout)
    (device : DeviceCaps) : Prop where
  takes : ∃ selection descriptor, registry.Candidate node declared device selection descriptor ∧
    descriptor.Takes node declared node.outputs
  viable : ∀ shapes, node.staticShapes? declared = some shapes → ∃ selection descriptor,
    registry.Candidate node declared device selection descriptor ∧
      descriptor.Viable node declared shapes

/-- Why a node cannot be built: no candidate takes the declared layouts; or all extents are known,
some candidate takes the declared layouts, but none takes the extents and can be finalized. -/
inductive Refuses (registry : Registry ι) (node : Node) (declared : List Layout)
    (device : DeviceCaps) : RuntimeError → Prop
  | incompatible (hnone : ∀ selection descriptor,
        registry.Candidate node declared device selection descriptor →
        ¬descriptor.Takes node declared node.outputs) :
      Refuses registry node declared device (.noCompatibleImplementation node.id node.kind
        (Layout.texts (declared ++ node.outputs)))
  | unfinalizable {shapes : ConcreteShapes} (reason : String)
      (hsome : ∃ selection descriptor,
        registry.Candidate node declared device selection descriptor ∧
          descriptor.Takes node declared node.outputs)
      (hshapes : node.staticShapes? declared = some shapes)
      (hnone : ∀ selection descriptor,
        registry.Candidate node declared device selection descriptor →
        ¬descriptor.Viable node declared shapes) :
      Refuses registry node declared device
        (.finalizationFailure node.id node.kind shapes.all reason)

theorem Refuses.not_serves {error : RuntimeError}
    (h : registry.Refuses node declared device error) :
    ¬registry.Serves node declared device := by
  rintro ⟨⟨selection, descriptor, hcandidate, htakes⟩, hviable⟩
  cases h with
  | incompatible hnone => exact hnone selection descriptor hcandidate htakes
  | unfinalizable _ _ hshapes hnone =>
    obtain ⟨selection, descriptor, hcandidate, hviable⟩ := hviable _ hshapes
    exact hnone selection descriptor hcandidate hviable

end Registry

/-- Where some extent is unknown, what works is what takes the declared layouts. -/
theorem Descriptor.works_iff_takes (h : node.staticShapes? declared = none) :
    descriptor.Works node declared ↔ descriptor.Takes node declared node.outputs := by
  refine ⟨Works.takes, fun htakes ↦ ⟨htakes, fun shapes hshapes ↦ ?_⟩⟩
  rw [h] at hshapes
  cases hshapes

/-- Where all extents are declared, what works is what takes them and can be finalized. -/
theorem Descriptor.works_iff_viable (hout : node.outputs = [node.output])
    (hvalue : node.DeclaresValue) (h : node.staticShapes? declared = some shapes) :
    descriptor.Works node declared ↔ descriptor.Viable node declared shapes := by
  obtain ⟨hinputs, houtputs⟩ := Node.pin_staticShapes? hout hvalue h
  constructor
  · rintro ⟨htakes, hfinalizes⟩
    refine ⟨?_, hfinalizes shapes h⟩
    rwa [hinputs, houtputs]
  · rintro ⟨htakes, hfinalizes⟩
    rw [hinputs, houtputs] at htakes
    refine ⟨htakes, fun other hother ↦ ?_⟩
    obtain rfl := Option.some.inj (h.symm.trans hother)
    exact hfinalizes

/-- A node can be built when some candidate works for it. -/
theorem Registry.serves_iff (hout : node.outputs = [node.output]) (hvalue : node.DeclaresValue) :
    registry.Serves node declared device ↔ ∃ selection descriptor,
      registry.Candidate node declared device selection descriptor ∧
        descriptor.Works node declared := by
  cases hshapes : node.staticShapes? declared with
  | none =>
    simp only [Descriptor.works_iff_takes hshapes]
    refine ⟨Serves.takes, fun htakes ↦ ⟨htakes, fun shapes h ↦ ?_⟩⟩
    rw [hshapes] at h
    cases h
  | some shapes =>
    constructor
    · rintro ⟨_, hviable⟩
      obtain ⟨selection, descriptor, hcandidate, hviable⟩ := hviable shapes hshapes
      exact ⟨selection, descriptor, hcandidate,
        (Descriptor.works_iff_viable hout hvalue hshapes).2 hviable⟩
    · rintro ⟨selection, descriptor, hcandidate, hworks⟩
      refine ⟨⟨selection, descriptor, hcandidate, hworks.takes⟩, fun other hother ↦ ?_⟩
      exact ⟨selection, descriptor, hcandidate,
        (Descriptor.works_iff_viable hout hvalue hother).1 hworks⟩

/-! ## Building instances -/

namespace BuildState

/-- What building an instance answers: it is bound to a candidate and can be built, and where the
extents of a constant are declared, to the first candidate that works; or it cannot be built. -/
inductive Chooses (registry : Registry ι) (device : DeviceCaps) (node : Node)
    (declared : List Layout) : Except RuntimeError (PrimitiveInstance ι) → Prop
  | chosen {inst : PrimitiveInstance ι} {bound : BoundImplementation ι} (hnode : inst.node = node)
      (hbound : inst.bound = some bound) (hserves : registry.Serves node declared device)
      (hfirst : node.DeclaresValue → First (registry.Meets (·.Works node declared))
        (registry.selections node declared device) bound.selection) :
      Chooses registry device node declared (.ok inst)
  | refused {error : RuntimeError} (h : registry.Refuses node declared device error) :
      Chooses registry device node declared (.error error)

/-- A form that may be in the cache for a node while a program is built: that of a candidate which
is viable for the declared extents. -/
def Cacheable (graph : Graph) (registry : Registry ι) (device : DeviceCaps) (node : Node)
    (_ : ConcreteShapes) (entry : FinalizedImplementation ι) : Prop :=
  ∀ shapes, node.staticShapes? (graph.inputLayouts node) = some shapes →
    registry.Suits node (graph.inputLayouts node) device shapes entry.bound.selection

/-- What may be kept for one node may be kept for all nodes of its operation and layouts. -/
theorem Cacheable.congr (hdeterministic : registry.Deterministic)
    {entry : FinalizedImplementation ι} (h : Cacheable graph registry device node shapes entry)
    (hop : node.op = other.op) (hinputs : graph.inputLayouts node = graph.inputLayouts other)
    (hout : node.outputs = other.outputs) :
    Cacheable graph registry device other shapes entry := by
  intro shapes hshapes
  rw [← Node.staticShapes?_congr hop hout, ← hinputs] at hshapes
  obtain ⟨hmem, descriptor, hdescriptor, hviable⟩ := h shapes hshapes
  rw [Registry.selections_congr hop hout] at hmem
  rw [← hinputs]
  exact ⟨hmem, descriptor, hdescriptor,
    (hdeterministic.of_descriptor? hdescriptor).viable hviable hop hout⟩

/-- Candidates without a property. -/
private theorem not_of_forall_selections {P : Descriptor ι → Prop}
    (h : ∀ selection ∈ registry.selections node declared device, ¬registry.Meets P selection)
    (selection : Selection) (descriptor : Descriptor ι)
    (hcandidate : registry.Candidate node declared device selection descriptor) : ¬P descriptor :=
  fun hP ↦ h selection (Registry.mem_selections_iff.2 ⟨descriptor, hcandidate⟩)
    ((Registry.meets_iff hcandidate.descriptor_eq).2 hP)

/-- A selection with a property is that of a candidate. -/
private theorem exists_candidate {P : Descriptor ι → Prop} {selection : Selection}
    (hmem : selection ∈ registry.selections node declared device)
    (h : registry.Meets P selection) : ∃ selection descriptor,
      registry.Candidate node declared device selection descriptor ∧ P descriptor := by
  obtain ⟨descriptor, hcandidate⟩ := Registry.mem_selections_iff.1 hmem
  exact ⟨selection, descriptor, hcandidate, (Registry.meets_iff hcandidate.descriptor_eq).1 h⟩

variable {state : BuildState ι ω}

/-- Where all extents are declared, an instance that settles is bound to the first candidate that
works. -/
theorem chooses_of_settles {α : Type} {selection : Selection} {workspace : Workspace ι ω}
    {answer : Except RuntimeError α × PrimitiveInstance ι × Workspace ι ω}
    (hout : node.outputs = [node.output]) (hshapes : node.staticShapes? declared = some shapes)
    (hfirst : First (registry.Meets (·.Takes node declared node.outputs))
      (registry.selections node declared device) selection)
    (h : PrimitiveInstance.Settles registry device node declared shapes selection workspace
      answer) :
    Chooses registry device node declared ((fun _ ↦ answer.2.1) <$> answer.1) := by
  have htakes := exists_candidate hfirst.mem hfirst.holds
  cases h with
  | refused reason hnone =>
    exact .refused (.unfinalizable reason htakes hshapes (not_of_forall_selections hnone))
  | settled hnode hbound hsuits hfirst' =>
    refine .chosen hnode hbound ⟨htakes, fun other hother ↦ ?_⟩ fun hvalue ↦ ?_
    · obtain rfl := Option.some.inj (hshapes.symm.trans hother)
      exact exists_candidate hsuits.mem hsuits.viable
    · have hworks := fun descriptor : Descriptor ι ↦
        descriptor.works_iff_viable hout hvalue hshapes
      obtain ⟨hinputs, houtputs⟩ := Node.pin_staticShapes? hout hvalue hshapes
      rw [hinputs, houtputs] at hfirst'
      have hchosen := (hfirst' hfirst.holds).strengthen
        (hsuits.viable.mono fun descriptor ↦ (hworks descriptor).2)
        fun _ h ↦ h.mono fun descriptor ↦ (hworks descriptor).1
      exact hchosen.of_cons hfirst fun _ h ↦ h.mono fun _ ↦ (·.takes)

/-- An instance that settles adds forms of a candidate that suits the declared extents. -/
theorem keepsFor_of_settles {α : Type} {selection : Selection} {workspace : Workspace ι ω}
    {answer : Except RuntimeError α × PrimitiveInstance ι × Workspace ι ω}
    (hdeterministic : registry.Deterministic) (hnode : node ∈ graph.nodes)
    (hshapes : node.staticShapes? (graph.inputLayouts node) = some shapes)
    (hkeeps : workspace.KeepsFor graph (Cacheable graph registry device))
    (h : PrimitiveInstance.Settles registry device node (graph.inputLayouts node) shapes selection
      workspace answer) : answer.2.2.KeepsFor graph (Cacheable graph registry device) := by
  cases h with
  | refused _ _ hadds =>
    exact hadds.keepsFor hkeeps (fun _ _ _ ↦ id) (fun _ _ h ↦ h.elim)
      (Cacheable.congr hdeterministic)
  | settled _ _ hsuits _ hadds =>
    refine hadds.keepsFor hkeeps (fun _ _ _ ↦ id) (fun key new ⟨hkey, hsame⟩ ↦
      ⟨node, hnode, hkey, ?_⟩) (Cacheable.congr hdeterministic)
    rw [Cacheable, hsame]
    intro other hother
    obtain rfl := Option.some.inj (hshapes.symm.trans hother)
    exact hsuits

/-- Binding a node chooses the first candidate that works, and keeps the cache in order. -/
theorem chooses_bindInstance (hdeterministic : registry.Deterministic) (hnode : node ∈ graph.nodes)
    (hout : node.outputs = [node.output])
    (hkeeps : state.workspace.KeepsFor graph (Cacheable graph registry device)) :
    let answer := state.bindInstance node (graph.inputLayouts node) ⟨registry, device⟩
    answer.2.workspace.KeepsFor graph (Cacheable graph registry device) ∧
      Chooses registry device node (graph.inputLayouts node) answer.1 := by
  have hbinds := PrimitiveInstance.bindsFirst_bind registry device
    (PrimitiveInstance.ofNode node (graph.inputLayouts node))
  unfold bindInstance
  simp only
  generalize (PrimitiveInstance.ofNode node (graph.inputLayouts node)).bind registry device =
    answer at hbinds
  cases hbinds with
  | unmatched hnone =>
    exact ⟨hkeeps, .refused (.incompatible (not_of_forall_selections hnone))⟩
  | @bound bound hnew hfirst =>
    cases hshapes : node.staticShapes? (graph.inputLayouts node) with
    | none =>
      have hworks := fun descriptor : Descriptor ι ↦ descriptor.works_iff_takes hshapes
      refine ⟨hkeeps, .chosen rfl rfl
        ⟨exists_candidate hfirst.mem hfirst.holds, fun shapes hsome ↦ ?_⟩ fun _ ↦ ?_⟩
      · rw [hshapes] at hsome
        cases hsome
      · exact hfirst.strengthen (hfirst.holds.mono fun descriptor ↦ (hworks descriptor).2)
          fun _ h ↦ h.mono fun _ ↦ (·.takes)
    | some shapes =>
      have hcached : state.workspace.Suited registry device node (graph.inputLayouts node)
          shapes := fun cache entry hcache hentry ↦
        (hkeeps cache hcache).2 _ entry hentry node hnode (by simp only) shapes hshapes
      simp only
      generalize hinst : ({ PrimitiveInstance.ofNode node (graph.inputLayouts node) with
        bound := some bound, state := .bound } : PrimitiveInstance ι) = inst
      obtain ⟨hinstNode, hdeclared, hbound, hstate⟩ : inst.node = node ∧
          inst.declaredInputs = graph.inputLayouts node ∧ inst.bound = some bound ∧
          inst.state = .bound := by
        subst hinst
        exact ⟨rfl, rfl, rfl, rfl⟩
      have hsettles : PrimitiveInstance.Settles registry device node (graph.inputLayouts node)
          shapes bound.selection state.workspace
          (inst.prepare shapes ⟨registry, device⟩ state.workspace) :=
        PrimitiveInstance.settles_prepare hdeterministic hinstNode hdeclared hnew hbound hstate
          hcached
      have hkeeps' := keepsFor_of_settles hdeterministic hnode hshapes hkeeps hsettles
      have hchooses := chooses_of_settles hout hshapes hfirst hsettles
      generalize inst.prepare shapes ⟨registry, device⟩ state.workspace = answer
        at hkeeps' hchooses
      obtain ⟨_ | _, inst', workspace⟩ := answer
      · exact ⟨hkeeps', hchooses⟩
      · simp only [workspace_save]
        exact ⟨hkeeps', hchooses⟩

/-- Building the instance of a node without a store binds it. -/
theorem chooses_buildInstance (hdeterministic : registry.Deterministic)
    (hnode : node ∈ graph.nodes) (hstore : state.store = none)
    (hkeeps : state.workspace.KeepsFor graph (Cacheable graph registry device)) :
    let answer := state.buildInstance node (graph.inputLayouts node) ⟨registry, device⟩
    answer.2.store = none ∧
      answer.2.workspace.KeepsFor graph (Cacheable graph registry device) ∧
      Chooses registry device node (graph.inputLayouts node) (Prod.fst <$> answer.1) := by
  obtain ⟨p, hp⟩ := List.mem_iff_getElem?.1 hnode
  have hout := (Graph.fits hp).outputs_eq
  rcases state.buildInstance_cases node (graph.inputLayouts node) ⟨registry, device⟩ with
    ⟨_, _, hrestore, _⟩ | ⟨state', hrestore, hbuild⟩
  · rw [restore?_of_store_eq_none hstore] at hrestore
    cases hrestore
  · rw [restore?_of_store_eq_none hstore] at hrestore
    obtain rfl := (Prod.mk.inj hrestore).2
    rw [hbuild]
    obtain ⟨hkeeps', hchooses⟩ := state.chooses_bindInstance hdeterministic hnode hout hkeeps
    refine ⟨store_bindInstance hstore, hkeeps', ?_⟩
    simp only [Functor.map_map, id_map']
    exact hchooses

/-- Building instances chooses one for every node, or fails at the first node that cannot be
built. -/
theorem chooses_buildInstances (hdeterministic : registry.Deterministic) (device : DeviceCaps)
    (nodes : List Node) (hnodes : ∀ node ∈ nodes, node ∈ graph.nodes) :
    ∀ state : BuildState ι ω, state.store = none →
      state.workspace.KeepsFor graph (Cacheable graph registry device) →
      let answer := (state.buildInstances graph ⟨registry, device⟩ nodes).1
      (∃ built, answer = .ok built ∧ List.Forall₂ (fun node (built : PrimitiveInstance ι × Bool) ↦
        Chooses registry device node (graph.inputLayouts node) (.ok built.1)) nodes built) ∨
      ∃ node error, answer = .error error ∧
        First (fun node ↦ ¬registry.Serves node (graph.inputLayouts node) device) nodes node ∧
        registry.Refuses node (graph.inputLayouts node) device error := by
  induction nodes with
  | nil => exact fun _ _ _ ↦ .inl ⟨[], rfl, .nil⟩
  | cons node nodes ih =>
    intro state hstore hkeeps
    rw [List.forall_mem_cons] at hnodes
    obtain ⟨hstore', hkeeps', hchooses⟩ :=
      state.chooses_buildInstance hdeterministic hnodes.1 hstore hkeeps
    unfold buildInstances
    generalize state.buildInstance node (graph.inputLayouts node) ⟨registry, device⟩ = answer
      at hstore' hkeeps' hchooses
    obtain ⟨result, state'⟩ := answer
    cases result with
    | error error =>
      cases hchooses with
      | refused hrefuses => exact .inr ⟨node, error, rfl, .here hrefuses.not_serves, hrefuses⟩
    | ok first =>
      have hserves : registry.Serves node (graph.inputLayouts node) device := by
        cases hchooses with
        | chosen _ _ hserves => exact hserves
      have hrest := ih hnodes.2 state' hstore' hkeeps'
      simp only at hrest ⊢
      generalize state'.buildInstances graph ⟨registry, device⟩ nodes = answer at hrest
      obtain ⟨result, state''⟩ := answer
      rcases hrest with ⟨others, rfl, hothers⟩ | ⟨blamed, error, rfl, hfirst, hrefuses⟩
      · exact .inl ⟨first :: others, rfl, .cons hchooses hothers⟩
      · exact .inr ⟨blamed, error, rfl, .later (not_not_intro hserves) hfirst, hrefuses⟩

end BuildState

/-! ## Building programs -/

namespace Program

variable {config : RuntimeConfig} {store : Option ArtifactStore} {session : Session ω}

/-- The instance of a node is bound to the best candidate that works for it. -/
structure Chosen (registry : Registry ι) (device : DeviceCaps) (graph : Graph) (node : Node)
    (inst : PrimitiveInstance ι) : Prop where
  node_eq : inst.node = node
  exists_best : ∃ bound, inst.bound = some bound ∧ (node.DeclaresValue →
    registry.Best node (graph.inputLayouts node) device
      (·.Works node (graph.inputLayouts node)) bound.selection)

/-- Laying out memory changes nothing about what is bound. -/
theorem forall₂_chosen_of_ofInstances {program : Program ι}
    {built : List (PrimitiveInstance ι × Bool)} {cache : Option (ImplementationCache ι)}
    (hbuilt : List.Forall₂ (fun node (built : PrimitiveInstance ι × Bool) ↦
      BuildState.Chooses registry device node (graph.inputLayouts node) (.ok built.1))
      graph.nodes built)
    {granted : Nat}
    (h : ofInstances graph registry device config built cache granted = .ok program) :
    List.Forall₂ (Chosen registry device graph) graph.nodes program.instances := by
  have hchosen : ∀ (node : Node) (inst : PrimitiveInstance ι),
      BuildState.Chooses registry device node (graph.inputLayouts node) (.ok inst) →
      Chosen registry device graph node inst := by
    intro node inst hchooses
    cases hchooses with
    | @chosen _ bound hnode hbound _ hfirst =>
      exact ⟨hnode, bound, hbound, fun hvalue ↦ Registry.best_of_first (hfirst hvalue)⟩
  obtain ⟨hlaid, hfrom, _⟩ := laidOut_of_ofInstances
    (fun node inst (hchosen : Chosen registry device graph node inst) ↦ hchosen.node_eq)
    (hbuilt.imp fun node (built : PrimitiveInstance ι × Bool) ↦ hchosen node built.1) h
  obtain rfl := hfrom.graph_eq
  rw [List.forall₂_iff_get]
  refine ⟨hlaid.length_instances.symm, fun p hp hp' ↦ ?_⟩
  obtain ⟨inst, ⟨hnode, hbest⟩, hinst⟩ := hlaid.exists_instance (List.getElem?_eq_getElem hp)
  rw [List.get_eq_getElem, List.get_eq_getElem, (List.getElem?_eq_some_iff.1 hinst).2]
  exact ⟨hnode, hbest⟩

/-- A build without a store binds every node to the best candidate that works for it: that takes
the declared layouts and, when all extents are known, can be finalized for them.  It fails at the
first node for which there is none, because no candidate takes the layouts or because none of those
that do can be finalized; and for reasons of memory. -/
theorem build_chooses (hdeterministic : registry.Deterministic)
    (hsignatures : config.implCacheCapacity = 0 ∨ graph.SignaturesFaithful)
    (hstore : store = none ∨ config.artifactCache = false) :
    let answer := (build graph registry device config store session).1
    (∀ program, answer = .ok program →
      List.Forall₂ (Chosen registry device graph) graph.nodes program.instances) ∧
    (∀ node, First (fun node ↦ ¬registry.Serves node (graph.inputLayouts node) device)
      graph.nodes node → ∃ error, answer = .error error ∧
        registry.Refuses node (graph.inputLayouts node) device error) ∧
    ((∀ node ∈ graph.nodes, registry.Serves node (graph.inputLayouts node) device) →
      ∀ error, answer = .error error → error.OfRun) ∧
    ∀ node ∈ graph.nodes, node.DeclaresValue →
      (registry.Serves node (graph.inputLayouts node) device ↔ ∃ selection descriptor,
        registry.Candidate node (graph.inputLayouts node) device selection descriptor ∧
          descriptor.Works node (graph.inputLayouts node)) := by
  have hstart : (BuildState.start config store session : BuildState ι ω).store = none := by
    rcases hstore with rfl | hoff
    · exact BuildState.store_start rfl
    · rw [BuildState.start, if_neg (by rw [hoff]; exact Bool.false_ne_true)]
  have hchooses := BuildState.chooses_buildInstances hdeterministic device graph.nodes (fun _ ↦ id)
    (.start config store session) hstart (Workspace.keepsFor_ofCapacity? hsignatures)
  have hserves : ∀ node ∈ graph.nodes, node.DeclaresValue →
      (registry.Serves node (graph.inputLayouts node) device ↔ ∃ selection descriptor,
        registry.Candidate node (graph.inputLayouts node) device selection descriptor ∧
          descriptor.Works node (graph.inputLayouts node)) := by
    intro node hnode hvalue
    obtain ⟨p, hp⟩ := List.mem_iff_getElem?.1 hnode
    exact Registry.serves_iff (Graph.fits hp).outputs_eq hvalue
  simp only [build] at hchooses ⊢
  generalize BuildState.buildInstances (_ : BuildState ι ω) graph ⟨registry, device⟩ graph.nodes =
    answer at hchooses ⊢
  obtain ⟨result, state⟩ := answer
  rcases hchooses with ⟨built, rfl, hbuilt⟩ | ⟨blamed, error, rfl, hfirst, hrefuses⟩
  · refine ⟨fun program h ↦ forall₂_chosen_of_ofInstances hbuilt h, fun node hfirst ↦ ?_,
      fun _ error h ↦ ofRun_ofInstances h, hserves⟩
    have hall : ∀ node ∈ graph.nodes, registry.Serves node (graph.inputLayouts node) device := by
      refine forall_mem_of_forall₂ (hbuilt.imp fun node built hchooses ↦ ?_).flip
      cases hchooses with
      | chosen _ _ hserves => exact hserves
    exact absurd (hall node hfirst.mem) hfirst.holds
  · refine ⟨fun _ h ↦ absurd h error_ne_ok, fun node hnode ↦ ?_, fun hall ↦ ?_, hserves⟩
    · obtain rfl := hfirst.unique hnode
      exact ⟨error, rfl, hrefuses⟩
    · exact absurd (hall blamed hfirst.mem) hfirst.holds

/-! ## A candidate that cannot be finalized -/

open CatalogueImplementation

/-- Only a script makes finalizing depend on what has happened before. -/
theorem isOk_finalize_eq_of_unscripted (impl : CatalogueImplementation)
    (hplain : ∀ script, impl ≠ .scripted script) (shapes : ConcreteShapes) (op : OpSpec)
    (env env' : Environment) : (Implementation.finalize impl shapes op env).1.isOk =
      (Implementation.finalize impl shapes op env').1.isOk := by
  cases impl with
  | scripted script => exact absurd rfl (hplain script)
  | reference | gemm | limited | failing => rfl
  | parallel impl =>
    show (impl.finalize shapes op env.plans).1.isOk = (impl.finalize shapes op env'.plans).1.isOk
    unfold ParallelImplementation.finalize
    cases impl.planKey shapes op with
    | error => rfl
    | ok => simp only [Except.isOk, Except.toBool]

/-- Apart from scripted ones, the implementations of the catalogue are deterministic. -/
theorem deterministic_of_unscripted {descriptor : Descriptor CatalogueImplementation}
    (hsame : ∀ node other : Node, node.op = other.op →
      descriptor.instantiate node = descriptor.instantiate other)
    (hplain : ∀ node script, descriptor.instantiate node ≠ .scripted script) :
    descriptor.Deterministic where
  supports_eq hop _ _ _ := by rw [hsame _ _ hop]
  isOk_finalize_eq {node _} hop _ shapes env env' := by
    rw [← hsame _ _ hop, ← hop]
    exact isOk_finalize_eq_of_unscripted _ (hplain node) shapes _ env env'

/-- The implementation that refuses to be finalized, for numbers in blocks. -/
def stubbornDescriptor : Descriptor CatalogueImplementation :=
  { failingDescriptor .genericKernel with supported := [(.f32, .blocked16)] }

/-- The registry of the reference implementations and one that refuses to be finalized. -/
def stubbornRegistry : Registry CatalogueImplementation where
  descriptors := referenceDescriptors ++ [stubbornDescriptor]
  distinct := by decide +kernel
  complete := by decide +kernel

theorem deterministic_stubbornRegistry : stubbornRegistry.Deterministic := by
  intro descriptor hmem
  rcases List.mem_append.1 hmem with hmem | hmem
  · obtain ⟨source, hsource, rfl⟩ := List.mem_map.1 hmem
    obtain ⟨kind, _, rfl⟩ := List.mem_map.1 hsource
    refine deterministic_of_unscripted (fun node other hop ↦ ?_) fun _ _ h ↦ nomatch h
    simp only [Descriptor.map, ReferenceImplementation.descriptor, Function.comp_apply,
      ReferenceImplementation.ofNode, hop]
  · obtain rfl := List.mem_singleton.1 hmem
    exact deterministic_of_unscripted (fun _ _ _ ↦ rfl) fun _ _ h ↦ nomatch h

/-- Two numbers in blocks, doubled, and doubled once more. -/
def twiceDoubled : Graph where
  nodes := [
    ⟨⟨0⟩, .parameter, [], [⟨⟨[.fixed 2]⟩, .f32, .blocked16⟩]⟩,
    ⟨⟨1⟩, .binary .add, [⟨0⟩, ⟨0⟩], [⟨⟨[.fixed 2]⟩, .f32, .blocked16⟩]⟩,
    ⟨⟨2⟩, .binary .add, [⟨1⟩, ⟨1⟩], [⟨⟨[.fixed 2]⟩, .f32, .blocked16⟩]⟩]
  outputs := [⟨2⟩]
  valid := by rfl

/-- What takes the layouts as they are cannot be finalized.  So the first sum is bound to the
reference implementation, which needs a conversion; and so is the second one, although it has to ask
again, as the form in the cache is not one of what it is bound to at first. -/
theorem build_chooses_twiceDoubled : ∃ program,
    (build twiceDoubled stubbornRegistry openDevice {} none freshSession).1 = .ok program ∧
    program.instances.map (·.descriptor?) = [some 0, some 2, some 2] ∧
    List.Forall₂ (Chosen stubbornRegistry openDevice twiceDoubled) twiceDoubled.nodes
      program.instances := by
  have hbound : (build twiceDoubled stubbornRegistry openDevice {} none freshSession).1.toOption.map
      (fun program ↦ program.instances.map (·.descriptor?)) = some [some 0, some 2, some 2] := by
    decide +kernel
  obtain ⟨program, hprogram, hbound⟩ := Option.map_eq_some_iff.1 hbound
  have hbuild := toOption_eq_some_iff.1 hprogram
  have hsignatures : twiceDoubled.SignaturesFaithful := by decide +kernel
  obtain ⟨hchosen, _⟩ := @build_chooses CatalogueImplementation Environment _ twiceDoubled
    stubbornRegistry openDevice {} none freshSession deterministic_stubbornRegistry
    (.inr hsignatures) (.inl rfl)
  exact ⟨program, hbuild, hbound, hchosen program hbuild⟩

end Program

end TensorEngine
