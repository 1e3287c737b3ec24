import TensorEngine.Proofs.Artifact.Payload
import TensorEngine.Proofs.Artifact.Reading
import TensorEngine.Proofs.Execution.Visit
import TensorEngine.Proofs.Program.Assembly

/-!
# Built programs

A program that was built over a registry with the reference implementations has an instance for
every place that can be prepared, a safe plan, slots of the planned types, and every constant in
its slot.
-/

namespace TensorEngine

open CatalogueImplementation

variable {graph : Graph} {plan : MemoryPlan} {registry : Registry CatalogueImplementation}
  {device : DeviceCaps} {streams p k : Nat} {node : Node} {tensor : HostTensor} {slot : Nat}
  {inst : PrimitiveInstance CatalogueImplementation} {pool pool' : MemoryPool}

/-! ## Reference implementations alone -/

/-- A registry of the reference implementations alone computes what they compute. -/
theorem Registry.exact_of_reference {registry : Registry CatalogueImplementation}
    (h : registry.descriptors = referenceDescriptors) : registry.Exact :=
  ⟨fun _ hmem ↦ h ▸ hmem, fun _ hmem ↦
    List.mem_append_left _ (List.mem_append_left _ (h ▸ hmem))⟩

/-- Over the reference implementations alone, nothing depends on shared plans. -/
theorem Registry.trusts_of_reference {registry : Registry CatalogueImplementation}
    (h : registry.descriptors = referenceDescriptors) (env : Environment) :
    registry.Trusts env := by
  refine .inl fun descriptor hmem ↦ ?_
  rw [h] at hmem
  obtain ⟨reference, hreference, rfl⟩ := List.mem_map.1 hmem
  obtain ⟨kind, _, rfl⟩ := List.mem_map.1 hreference
  rfl

theorem Node.length_staticShapes? {declared : List Layout} {shapes : ConcreteShapes}
    (h : node.staticShapes? declared = some shapes) :
    shapes.inputs.length = declared.length ∧ shapes.outputs.length = 1 := by
  unfold staticShapes? at h
  simp only [Option.bind_eq_bind, Option.bind_eq_some_iff, Option.pure_def] at h
  obtain ⟨inputs, hinputs, h⟩ := h
  obtain ⟨output, rfl⟩ : ∃ output, shapes = ⟨inputs, [output]⟩ := by
    split at h
    · exact ⟨_, (Option.some.inj h).symm⟩
    · obtain ⟨output, _, h⟩ := Option.bind_eq_some_iff.1 h
      exact ⟨output, (Option.some.inj h).symm⟩
  exact ⟨(mapM_eq_some_iff.1 hinputs).length_eq.symm, rfl⟩

/-- An instance of a node that can be prepared, before it has slots. -/
structure PrimitiveInstance.BuiltFor (graph : Graph) (registry : Registry CatalogueImplementation)
    (node : Node) (inst : PrimitiveInstance CatalogueImplementation) : Prop where
  node_eq : inst.node = node
  declared_eq : inst.declaredInputs = graph.inputLayouts node
  usable : inst.Usable registry

namespace BuildState

variable {state : BuildState CatalogueImplementation Environment}

/-- What building an instance answers: sound caches and, when it succeeds, an instance that can be
prepared. -/
structure Builds {α : Type} (graph : Graph) (registry : Registry CatalogueImplementation)
    (good : α → Prop)
    (answer : Except RuntimeError α × BuildState CatalogueImplementation Environment) : Prop where
  sound : answer.2.workspace.Sound graph registry
  built : ∀ a, answer.1 = .ok a → good a

theorem bindInstance_spec (device : DeviceCaps) (hexact : registry.Exact)
    (hnode : graph.nodes[p]? = some node)
    (hsound : state.workspace.Sound graph registry) :
    Builds graph registry (PrimitiveInstance.BuiltFor graph registry node)
      (state.bindInstance node (graph.inputLayouts node) ⟨registry, device⟩) := by
  have hbinds := state.binds_bindInstance node (graph.inputLayouts node) registry device
  generalize state.bindInstance node (graph.inputLayouts node) ⟨registry, device⟩ = answer at hbinds
  have hnew' : ∀ {inst : PrimitiveInstance CatalogueImplementation},
      NewlyBound registry device node (graph.inputLayouts node) inst →
        inst.BuiltFor graph registry node := by
    rintro inst ⟨rfl, hdeclared, hstate, bound, hbound, hoffer⟩
    exact ⟨rfl, hdeclared, .bound hstate hbound (PrimitiveInstance.genuine_of_offers hexact hoffer)⟩
  have hprepares : ∀ {inst : PrimitiveInstance CatalogueImplementation} {shapes : ConcreteShapes},
      NewlyBound registry device node (graph.inputLayouts node) inst →
      node.staticShapes? (graph.inputLayouts node) = some shapes →
        PrimitiveInstance.Prepares graph registry shapes inst
          (inst.prepare shapes ⟨registry, device⟩ state.workspace) := by
    intro inst shapes hnew hshapes
    obtain ⟨hin, hout⟩ := Node.length_staticShapes? hshapes
    obtain ⟨rfl, hdeclared, husable⟩ := hnew' hnew
    refine PrimitiveInstance.prepare_spec device hexact (hnew.of (List.mem_of_getElem? hnode))
      husable hsound (hdeclared ▸ hin) ?_
    rw [hout, (Graph.fits hnode).outputs_eq]
    rfl
  cases hbinds with
  | unmatched => exact ⟨hsound, fun _ h ↦ absurd h error_ne_ok⟩
  | undetermined hnew =>
    refine ⟨hsound, fun built hbuilt ↦ ?_⟩
    obtain rfl := Except.ok.inj hbuilt
    exact hnew' hnew
  | unprepared hnew hshapes hprepare =>
    have hprepared := hprepares hnew hshapes
    rw [hprepare] at hprepared
    exact ⟨hprepared.sound, fun _ h ↦ absurd h error_ne_ok⟩
  | @prepared _ _ _ transition _ hnew hshapes hprepare =>
    have hprepared := hprepares hnew hshapes
    rw [hprepare] at hprepared
    refine ⟨?_, fun built hbuilt ↦ ?_⟩
    · simp only [workspace_save]
      exact hprepared.sound
    · obtain rfl := Except.ok.inj hbuilt
      exact ⟨hprepared.same.node_eq.trans hnew.node_eq,
        hprepared.same.declared_eq.trans hnew.declared_eq, .ready (hprepared.ready transition rfl)⟩

/-- What is restored for a node fits it: the caches stay sound, and an instance that is read back
can be prepared. -/
structure Restores (graph : Graph) (registry : Registry CatalogueImplementation) (node : Node)
    (answer : Option (PrimitiveInstance CatalogueImplementation) ×
      BuildState CatalogueImplementation Environment) : Prop where
  sound : answer.2.workspace.Sound graph registry
  restored : ∀ inst, answer.1 = some inst → inst.BuiltFor graph registry node

theorem buildInstance_spec (device : DeviceCaps) (hexact : registry.Exact)
    (hnode : graph.nodes[p]? = some node)
    (hrestores : Restores graph registry node
      (state.restore? node (graph.inputLayouts node) ⟨registry, device⟩)) :
    Builds graph registry (fun built ↦ built.1.BuiltFor graph registry node)
      (state.buildInstance node (graph.inputLayouts node) ⟨registry, device⟩) := by
  rcases state.buildInstance_cases node (graph.inputLayouts node) ⟨registry, device⟩ with
    ⟨inst, state', hrestore, hbuild⟩ | ⟨state', hrestore, hbuild⟩
  · rw [hrestore] at hrestores
    rw [hbuild]
    refine ⟨hrestores.sound, fun built hbuilt ↦ ?_⟩
    obtain rfl := Except.ok.inj hbuilt
    exact hrestores.restored inst rfl
  · rw [hrestore] at hrestores
    rw [hbuild]
    have hbuilds := bindInstance_spec device hexact hnode hrestores.sound
    refine ⟨hbuilds.sound, fun built hbuilt ↦ ?_⟩
    obtain ⟨inst, hinst, rfl⟩ := map_eq_ok_iff.1 hbuilt
    exact hbuilds.built inst hinst

/-- Without a store nothing is restored. -/
theorem restores_of_store_eq_none (hstore : state.store = none)
    (hsound : state.workspace.Sound graph registry) :
    Restores graph registry node
      (state.restore? node (graph.inputLayouts node) ⟨registry, device⟩) := by
  rw [restore?_of_store_eq_none hstore]
  exact ⟨hsound, fun inst hinst ↦ absurd hinst (Option.some_ne_none inst).symm⟩

/-- Over the reference implementations alone, whatever is restored can be prepared: the extents in
a blob are those the form was made for, and the kernel is that of the node. -/
theorem restores_of_reference (hregistry : registry.descriptors = referenceDescriptors)
    (hsound : state.workspace.Sound graph registry) :
    Restores graph registry node
      (state.restore? node (graph.inputLayouts node) ⟨registry, device⟩) := by
  obtain ⟨_, hcache, _⟩ := state.restore?_spec node (graph.inputLayouts node) ⟨registry, device⟩
  refine ⟨⟨Registry.trusts_of_reference hregistry _, hcache ▸ hsound.entries_sound⟩, ?_⟩
  intro inst hinst
  obtain ⟨_, id, descriptor, form, implementation, _, hreads, rfl⟩ :=
    exists_readsBack_of_restore? hinst
  have hmem := List.mem_of_getElem? hreads.asks.descriptor_eq
  rw [hregistry] at hmem
  obtain ⟨hbackend, hinstantiate⟩ := instantiate_reference hmem node
  have htakes := hreads.takes
  rw [hinstantiate, deserialize_reference_eq_ok_iff] at htakes
  obtain ⟨reference, htakes, rfl, _⟩ := htakes
  obtain ⟨shapes, _, rfl, rfl⟩ := ReferenceImplementation.deserialize_eq_ok_iff.1 htakes
  exact ⟨rfl, rfl, .ready ⟨rfl, ⟨⟨id, _, false⟩, _⟩, rfl, rfl,
    ⟨⟨rfl, descriptor, hreads.asks.descriptor_eq, hbackend⟩, rfl, rfl, rfl⟩⟩⟩

end BuildState

/-! ## Laying out memory -/

namespace MemoryPool

theorem typed_empty {limit : Option Nat} {granted : Nat} :
    (empty plan limit granted).Typed plan := by
  rw [Typed, empty, List.map_map]
  exact List.map_congr_left fun slot _ ↦ TensorData.dtype_empty

/-- The pool of a plan has slots of the planned types. -/
theorem typed_allocate {limit : Option Nat} {granted : Nat}
    (h : allocate plan limit granted = .ok pool) : pool.Typed plan := by
  unfold allocate at h
  have hfold : ∀ {slots : List BufferSlot} {start : MemoryPool}, start.Typed plan →
      slots.foldlM allocateSlot start = .ok pool → pool.Typed plan := by
    intro slots
    induction slots with
    | nil =>
      intro start hstart hfold
      obtain rfl := Except.ok.inj hfold
      exact hstart
    | cons slot slots ih =>
      intro start hstart hfold
      rw [List.foldlM_cons, bind_eq_ok_iff] at hfold
      obtain ⟨next, hnext, hfold⟩ := hfold
      refine ih ?_ hfold
      unfold allocateSlot at hnext
      split at hnext
      · obtain ⟨⟨grew, _⟩, hroom, rfl⟩ := map_eq_ok_iff.1 hnext
        exact (touches_ensureCapacity hroom).typed hstart
      · obtain rfl := Except.ok.inj hnext
        exact hstart
  exact hfold typed_empty h

end MemoryPool

namespace PrimitiveInstance

variable {ι : Type} {inst : PrimitiveInstance ι}

/-- Writing a constant leaves it in its slot and touches no other. -/
theorem writeConstant_spec (h : inst.writeConstant slot pool = .ok pool') :
    pool.Touches slot pool' ∧ (∀ tensor, inst.node.op = .constant tensor →
      ∃ data, pool'.slots[slot]? = some data ∧ data.Begins tensor.data) ∧
      (inst.node.kind ≠ .constant → pool' = pool) := by
  unfold writeConstant at h
  split at h
  · rename_i tensor hop
    obtain ⟨⟨grew, roomy⟩, hroom, h⟩ := bind_eq_ok_iff.1 h
    rw [mapError_eq_ok_iff] at hroom
    unfold copyBinding at h
    obtain ⟨data, hread, h⟩ := bind_eq_ok_iff.1 h
    obtain ⟨data', hcopy, h⟩ := bind_eq_ok_iff.1 h
    rw [mapError_eq_ok_iff, MemoryPool.read_eq_ok_iff] at hread
    rw [mapError_eq_ok_iff, TensorData.copyFrom_eq_ok_iff] at hcopy
    obtain ⟨hdtype, hsize, rfl⟩ := hcopy
    obtain rfl := Except.ok.inj h
    refine ⟨(MemoryPool.touches_ensureCapacity hroom).trans
      (MemoryPool.touches_of_set hread TensorData.dtype_overwrite rfl), ?_, fun hkind ↦ ?_⟩
    · intro tensor' hop'
      rw [hop, OpSpec.constant.injEq] at hop'
      subst hop'
      exact ⟨_, List.getElem?_set_self (List.getElem?_eq_some_iff.1 hread).1,
        TensorData.begins_overwrite hdtype hsize⟩
    · rw [Node.kind, hop] at hkind
      exact absurd rfl hkind
  · rename_i hop
    obtain rfl := Except.ok.inj h
    exact ⟨.refl pool slot, fun tensor h ↦ absurd h (hop tensor), fun _ ↦ rfl⟩

theorem place_eq_ok (hsafe : plan.Safe graph streams) (hnode : graph.nodes[p]? = some inst.node)
    {placed : PrimitiveInstance ι} (h : inst.place plan pool = .ok (placed, pool')) :
    placed = inst.attachSlots (plan.operandPlaces graph inst.node) (plan.place p) ∧
      inst.writeConstant (plan.place p) pool = .ok pool' := by
  unfold place at h
  rw [hsafe.slotOf_inputs hnode, ok_bind, hsafe.slotOf_id hnode, ok_bind, bind_eq_ok_iff] at h
  obtain ⟨pool'', hwrite, h⟩ := h
  obtain ⟨rfl, rfl⟩ := Prod.mk.inj (Except.ok.inj h)
  exact ⟨rfl, hwrite⟩

/-- Placing an instance puts its constant next to those in front. -/
theorem holdsConstants_place (hsafe : plan.Safe graph streams)
    (hnode : graph.nodes[p]? = some inst.node)
    (hwrite : inst.writeConstant (plan.place p) pool = .ok pool')
    (hconstants : pool.HoldsConstants graph plan p) :
    pool'.HoldsConstants graph plan (p + 1) := by
  obtain ⟨htouches, hwritten, hidle⟩ := writeConstant_spec hwrite
  intro q other tensor hq hother hop
  rcases Nat.lt_succ_iff_lt_or_eq.1 hq with hlt | rfl
  · by_cases hkind : inst.node.kind = .constant
    · have hstart : ∀ {place : Nat} {node : Node}, graph.nodes[place]? = some node →
          node.kind = .constant → graph.Shares place place := fun hplace hconstant ↦
        .start hplace (by rw [hconstant]; nofun)
      have hconstant : other.kind = .constant := by
        rw [Node.kind, hop]
        rfl
      have hne := hsafe.place_ne (hstart hnode hkind) ⟨_, hnode, .inr (.inl hkind)⟩
        (hstart hother hconstant) (Nat.ne_of_lt hlt)
      rw [htouches.frame _ hne]
      exact hconstants q other tensor hlt hother hop
    · rw [hidle hkind]
      exact hconstants q other tensor hlt hother hop
  · obtain rfl := Option.some.inj (hnode.symm.trans hother)
    exact hwritten tensor hop

/-- Once all instances have their slots, the constants are in theirs. -/
theorem placeAll_spec (hsafe : plan.Safe graph streams) {built : List (PrimitiveInstance ι)} :
    ∀ {k : Nat} {pool : MemoryPool} {placed : List (PrimitiveInstance ι)},
      graph.nodes.drop k = built.map (·.node) → pool.Typed plan →
      pool.HoldsConstants graph plan k → placeAll plan pool built = .ok (placed, pool') →
        placed = (built.zipIdx k).map (fun (inst, p) ↦
          inst.attachSlots (plan.operandPlaces graph inst.node) (plan.place p)) ∧
        pool'.Typed plan ∧ pool'.HoldsConstants graph plan graph.size := by
  induction built with
  | nil =>
    intro k pool placed hdrop htyped hconstants h
    obtain ⟨rfl, rfl⟩ := Prod.mk.inj (Except.ok.inj h)
    exact ⟨rfl, htyped, fun q node tensor hq ↦
      hconstants q node tensor (Nat.lt_of_lt_of_le hq (List.drop_eq_nil_iff.1 hdrop))⟩
  | cons inst built ih =>
    intro k pool placed hdrop htyped hconstants h
    unfold placeAll at h
    obtain ⟨⟨first, pool₁⟩, hfirst, h⟩ := bind_eq_ok_iff.1 h
    obtain ⟨⟨others, pool₂⟩, hothers, h⟩ := bind_eq_ok_iff.1 h
    obtain ⟨rfl, rfl⟩ := Prod.mk.inj (Except.ok.inj h)
    obtain ⟨hnode, hdrop'⟩ := Graph.node_of_drop hdrop
    obtain ⟨rfl, hwrite⟩ := place_eq_ok hsafe hnode hfirst
    obtain ⟨rfl, hkept⟩ := ih hdrop' ((writeConstant_spec hwrite).1.typed htyped)
      (holdsConstants_place hsafe hnode hwrite hconstants) hothers
    exact ⟨rfl, hkept⟩

/-- What placing does to the slots depends on the nodes alone. -/
theorem map_snd_placeAll {nodes : List Node} {built : List (PrimitiveInstance ι)}
    (hbuilt : List.Forall₂ (fun node inst ↦ inst.node = node) nodes built) {pool : MemoryPool} :
    Prod.snd <$> placeAll plan pool built = Prod.snd <$> placeAll plan pool
      (nodes.map fun node ↦ (ofNode node [] : PrimitiveInstance CatalogueImplementation)) := by
  induction hbuilt generalizing pool with
  | nil => rfl
  | @cons node inst nodes built hinst _ ih =>
    subst hinst
    have hwrite : ∀ slot, (ofNode inst.node [] :
        PrimitiveInstance CatalogueImplementation).writeConstant slot pool =
          inst.writeConstant slot pool := fun _ ↦ rfl
    have hrest : ∀ {κ : Type} (first : PrimitiveInstance κ)
        (others : Except RuntimeError (List (PrimitiveInstance κ) × MemoryPool)),
        Prod.snd <$> (others >>= fun answer ↦ pure (first :: answer.1, answer.2)) =
          Prod.snd <$> others := by
      intro κ first others
      cases others <;> rfl
    simp only [List.map_cons, placeAll, place]
    have hnode : (ofNode inst.node [] : PrimitiveInstance CatalogueImplementation).node =
        inst.node := rfl
    simp only [hnode, hwrite]
    cases inst.node.inputs.mapM plan.slotOf with
    | error error => rfl
    | ok inputSlots =>
      cases plan.slotOf inst.node.id with
      | error error => rfl
      | ok outputSlot =>
        simp only [ok_bind]
        cases inst.writeConstant outputSlot pool with
        | error error => rfl
        | ok pool' => exact (hrest _ _).trans (ih.trans (hrest _ _).symm)

end PrimitiveInstance

/-- The slots of a new program: room as planned, and the constants in place. -/
def initialPool (graph : Graph) (plan : MemoryPlan) (limit : Option Nat) (granted : Nat) :
    Except RuntimeError MemoryPool := do
  let pool ← (MemoryPool.allocate plan limit granted).mapError AllocationError.toRuntime
  Prod.snd <$> PrimitiveInstance.placeAll plan pool
    (graph.nodes.map fun node ↦
      (.ofNode node [] : PrimitiveInstance CatalogueImplementation))

/-! ## Building programs -/

namespace Program

variable {program : Program CatalogueImplementation} {config : RuntimeConfig}
  {session : Session Environment}

/-- A program over a registry with the reference implementations that can run, unless it is
poisoned. -/
structure Fit (program : Program CatalogueImplementation) : Prop where
  exact : program.registry.Exact
  device : program.device.enables .reference = true
  safe : program.plan.Safe program.graph program.config.streamCount
  runnable : program.poison = none → ∀ session, program.registry.Trusts session.environment →
    (program.executionState session).Fit program.graph program.plan program.registry
  constants : program.pool.HoldsConstants program.graph program.plan program.graph.size

/-- What a program was built from, on a host that grants blocks of up to `granted` bytes. -/
structure BuiltFrom {ι : Type} (program : Program ι) (graph : Graph) (registry : Registry ι)
    (device : DeviceCaps) (config : RuntimeConfig) (granted : Nat) : Prop where
  graph_eq : program.graph = graph
  registry_eq : program.registry = registry
  device_eq : program.device = device
  config_eq : program.config = config
  poison_eq : program.poison = none
  schedule_eq : program.schedule = .ofGraph graph config.streamCount
  plan_eq : MemoryPlan.ofGraph graph config.streamCount = .ok program.plan
  pool_eq : initialPool graph program.plan config.maxPoolBytes granted = .ok program.pool

/-- The cache of a new program is empty. -/
theorem sound_ofCapacity? (hcache : config.implCacheCapacity = 0 ∨ graph.SignaturesFaithful)
    (htrusts : registry.Trusts session.environment) (name : String) :
    (⟨ImplementationCache.ofCapacity? config.implCacheCapacity, session.scope name⟩ :
      Workspace CatalogueImplementation Environment).Sound graph registry :=
  ⟨htrusts, Workspace.keepsFor_ofCapacity? hcache⟩

/-- A program was made of instances of its nodes: each has the slots of its place, and the constants
are in theirs. -/
structure LaidOut {ι : Type} (program : Program ι) (Good : Node → PrimitiveInstance ι → Prop) :
    Prop where
  safe : program.plan.Safe program.graph program.config.streamCount
  length_instances : program.instances.length = program.graph.size
  exists_instance : ∀ {p : Nat} {node : Node}, program.graph.nodes[p]? = some node →
    ∃ inst, Good node inst ∧ program.instances[p]? = some
      (inst.attachSlots (program.plan.operandPlaces program.graph inst.node)
        (program.plan.place p))
  typed : program.pool.Typed program.plan
  constants : program.pool.HoldsConstants program.graph program.plan program.graph.size

/-- Every instance is one that was made, with its slots. -/
theorem LaidOut.exists_made {ι : Type} {program : Program ι}
    {Good : Node → PrimitiveInstance ι → Prop} (h : program.LaidOut Good)
    {inst : PrimitiveInstance ι} (hmem : inst ∈ program.instances) :
    ∃ node ∈ program.graph.nodes, ∃ (made : PrimitiveInstance ι) (inputSlots : List Nat)
      (outputSlot : Nat), Good node made ∧ inst = made.attachSlots inputSlots outputSlot := by
  obtain ⟨p, hinst⟩ := List.mem_iff_getElem?.1 hmem
  have hlt := (List.getElem?_eq_some_iff.1 hinst).1
  rw [h.length_instances] at hlt
  have hnode := List.getElem?_eq_getElem hlt
  obtain ⟨made, hmade, hplaced⟩ := h.exists_instance hnode
  exact ⟨_, List.mem_of_getElem? hnode, made, _, _, hmade,
    Option.some.inj (hinst.symm.trans hplaced)⟩

/-- What holds of the instances that two programs were made of, node by node, holds of the instances
that have slots. -/
theorem LaidOut.forall₂ {ι κ : Type} {program : Program ι} {other : Program κ}
    {Good : Node → PrimitiveInstance ι → Prop} {Good' : Node → PrimitiveInstance κ → Prop}
    {Related : PrimitiveInstance ι → PrimitiveInstance κ → Prop} (h : program.LaidOut Good)
    (h' : other.LaidOut Good') (hgraph : program.graph = other.graph)
    (hrelated : ∀ node inst inst', Good node inst → Good' node inst' →
      ∀ inputSlots outputSlot inputSlots' outputSlot', Related
        (inst.attachSlots inputSlots outputSlot) (inst'.attachSlots inputSlots' outputSlot')) :
    List.Forall₂ Related program.instances other.instances := by
  have hlength : program.instances.length = other.instances.length := by
    rw [h.length_instances, h'.length_instances, hgraph]
  refine List.forall₂_iff_get.2 ⟨hlength, fun p hp hp' ↦ ?_⟩
  have hlt := h.length_instances ▸ hp
  have hnode : program.graph.nodes[p]? = some program.graph.nodes[p] :=
    List.getElem?_eq_getElem hlt
  obtain ⟨inst, hgood, hinst⟩ := h.exists_instance hnode
  have hnode' : other.graph.nodes[p]? = some program.graph.nodes[p] := by rw [← hgraph, hnode]
  obtain ⟨inst', hgood', hinst'⟩ := h'.exists_instance hnode'
  rw [List.get_eq_getElem, List.get_eq_getElem, (List.getElem?_eq_some_iff.1 hinst).2,
    (List.getElem?_eq_some_iff.1 hinst').2]
  exact hrelated _ inst inst' hgood hgood' _ _ _ _

/-- The program of instances of all nodes is laid out. -/
theorem laidOut_of_ofInstances {ι ω : Type} [Implementation ι ω] {program : Program ι}
    {registry : Registry ι} {Good : Node → PrimitiveInstance ι → Prop}
    (hnode : ∀ node inst, Good node inst → inst.node = node)
    {built : List (PrimitiveInstance ι × Bool)} {cache : Option (ImplementationCache ι)}
    (hbuilt : List.Forall₂ (fun node built ↦ Good node built.1) graph.nodes built)
    {granted : Nat}
    (h : ofInstances graph registry device config built cache granted = .ok program) :
    program.LaidOut Good ∧ program.BuiltFrom graph registry device config granted ∧
      program.cache = cache := by
  unfold ofInstances at h
  obtain ⟨plan, hplan, h⟩ := bind_eq_ok_iff.1 h
  obtain ⟨pool, hpool, h⟩ := bind_eq_ok_iff.1 h
  obtain ⟨⟨placed, pool'⟩, hplaced, h⟩ := bind_eq_ok_iff.1 h
  obtain rfl := Except.ok.inj h
  rw [mapError_eq_ok_iff] at hplan
  rw [← List.forall₂_map_right_iff] at hbuilt
  have hsafe := MemoryPlan.safe_of_ofGraph hplan
  have htyped := MemoryPool.typed_allocate (mapError_eq_ok_iff.1 hpool)
  have hnodes : graph.nodes = (built.map Prod.fst).map (·.node) := by
    rw [← List.forall₂_eq_eq_eq, List.forall₂_map_right_iff]
    exact hbuilt.imp fun node inst h ↦ (hnode node inst h).symm
  obtain ⟨rfl, htyped', hconstants⟩ := PrimitiveInstance.placeAll_spec hsafe
    (List.drop_zero.trans hnodes) htyped (fun q _ _ hq ↦ absurd hq (Nat.not_lt_zero q)) hplaced
  refine ⟨⟨hsafe, ?_, fun {p node} hp ↦ ?_, htyped', hconstants⟩,
    ⟨rfl, rfl, rfl, rfl, rfl, rfl, hplan, ?_⟩, rfl⟩
  · rw [List.length_map, List.length_zipIdx, ← hbuilt.length_eq]
    rfl
  · obtain ⟨hlt, rfl⟩ := List.getElem?_eq_some_iff.1 hp
    have hlt' := hbuilt.length_eq ▸ hlt
    refine ⟨(built.map Prod.fst)[p], hbuilt.get hlt hlt', ?_⟩
    simp only [List.getElem?_map, List.getElem?_zipIdx, List.getElem?_eq_getElem hlt',
      Option.map_some, Nat.zero_add]
  · rw [initialPool, hpool, ok_bind, ← PrimitiveInstance.map_snd_placeAll
      (hbuilt.imp hnode), hplaced]
    rfl

/-- Whether memory can be laid out for instances depends on their nodes alone. -/
theorem exists_ofInstances {ι ω : Type} [Implementation ι ω] {program : Program ι}
    {registry : Registry ι} {granted : Nat}
    (hfrom : program.BuiltFrom graph registry device config granted)
    {built : List (PrimitiveInstance ι × Bool)}
    (hbuilt : List.Forall₂ (fun node built ↦ built.1.node = node) graph.nodes built)
    (cache : Option (ImplementationCache ι)) :
    ∃ other, ofInstances graph registry device config built cache granted = .ok other ∧
      other.artifactHits = built.countP Prod.snd := by
  have hnodes : List.Forall₂ (fun node (inst : PrimitiveInstance ι) ↦ inst.node = node)
      graph.nodes (built.map Prod.fst) := List.forall₂_map_right_iff.2 hbuilt
  obtain ⟨pool, hpool, hplaced⟩ := bind_eq_ok_iff.1 hfrom.pool_eq
  rw [← PrimitiveInstance.map_snd_placeAll hnodes] at hplaced
  obtain ⟨⟨placed, pool'⟩, hplaced, _⟩ := map_eq_ok_iff.1 hplaced
  unfold ofInstances
  simp only
  rw [mapError_eq_ok_iff.2 hfrom.plan_eq, ok_bind, hpool, ok_bind, hplaced]
  exact ⟨_, rfl, rfl⟩

/-- A program of instances that can be prepared can run. -/
theorem LaidOut.fit (h : program.LaidOut
      (PrimitiveInstance.BuiltFor program.graph program.registry))
    (hexact : program.registry.Exact) (hdevice : program.device.enables .reference = true)
    {workspace : Workspace CatalogueImplementation Environment}
    (hsound : workspace.Sound program.graph program.registry)
    (hcache : program.cache = workspace.cache) : program.Fit := by
  refine ⟨hexact, hdevice, h.safe, fun _ session htrusts ↦ ?_, h.constants⟩
  refine ⟨h.length_instances, fun {p node} hnode ↦ ?_,
    ⟨htrusts, fun cache hsome ↦ hsound.entries_sound cache (hcache.symm.trans hsome)⟩, h.typed⟩
  obtain ⟨inst, hinst, hplaced⟩ := h.exists_instance hnode
  refine ⟨_, hplaced, ⟨hinst.node_eq, hinst.declared_eq, ⟨rfl, rfl⟩⟩, ?_⟩
  cases hinst.usable with
  | bound hstate hbound hgenuine => exact .bound hstate hbound hgenuine
  | ready hready => exact .ready ⟨hready.state_eq, hready.entry⟩

/-- A program that was built can run, when nothing was restored or all implementations are
reference ones. -/
theorem fit_of_restores (config : RuntimeConfig) (hexact : registry.Exact)
    (hdevice : device.enables .reference = true)
    (hcache : config.implCacheCapacity = 0 ∨ graph.SignaturesFaithful)
    (htrusts : registry.Trusts session.environment) {store after : Option ArtifactStore}
    {session' : Session Environment}
    (hrestores : store = none ∨ registry.descriptors = referenceDescriptors)
    (h : build graph registry device config store session = (.ok program, after, session')) :
    program.Fit ∧ program.BuiltFrom graph registry device config session.granted ∧
      registry.Trusts session'.environment := by
  obtain ⟨built, state, hbuilt, hprogram, rfl⟩ := exists_built h
  obtain ⟨⟨_, hsound⟩, hinstances⟩ := BuildState.buildInstances_induction graph
    ⟨registry, device⟩
    (fun state : BuildState CatalogueImplementation Environment ↦
      (state.store = none ∨ registry.descriptors = referenceDescriptors) ∧
        state.workspace.Sound graph registry)
    (fun node built ↦ built.1.BuiltFor graph registry node)
    (fun node hnode state hinv ↦ by
      obtain ⟨p, hp⟩ := List.mem_iff_getElem?.1 hnode
      have hbuilds := BuildState.buildInstance_spec device hexact hp <| hinv.1.elim
        (BuildState.restores_of_store_eq_none · hinv.2)
        (BuildState.restores_of_reference · hinv.2)
      exact ⟨⟨hinv.1.imp_left BuildState.store_buildInstance, hbuilds.sound⟩, hbuilds.built⟩)
    graph.nodes (fun _ hnode ↦ hnode)
    (.start config store session)
    ⟨hrestores.imp_left BuildState.store_start, sound_ofCapacity? hcache htrusts _⟩
  rw [hbuilt] at hsound hinstances
  obtain ⟨hlaid, hfrom, hcache'⟩ := laidOut_of_ofInstances (fun _ _ h ↦ h.node_eq)
    (hinstances built rfl) hprogram
  obtain ⟨rfl, rfl, rfl⟩ := And.intro hfrom.graph_eq (And.intro hfrom.registry_eq hfrom.device_eq)
  exact ⟨hlaid.fit hexact hdevice hsound hcache', hfrom, hsound.trusts⟩

/-- A program that was built without a store can run. -/
theorem fit_of_build (config : RuntimeConfig) (hexact : registry.Exact)
    (hdevice : device.enables .reference = true)
    (hcache : config.implCacheCapacity = 0 ∨ graph.SignaturesFaithful)
    (htrusts : registry.Trusts session.environment) {store : Option ArtifactStore}
    {session' : Session Environment}
    (h : build graph registry device config none session = (.ok program, store, session')) :
    program.Fit ∧ program.BuiltFrom graph registry device config session.granted ∧
      registry.Trusts session'.environment :=
  fit_of_restores config hexact hdevice hcache htrusts (.inl rfl) h

/-! ## New programs -/

def referenceRegistry : Registry CatalogueImplementation where
  descriptors := referenceDescriptors
  distinct := by decide +kernel
  complete := by decide +kernel

/-- A device on which all families may be used. -/
def openDevice : DeviceCaps := ⟨"open", BackendKind.all, 1, []⟩

/-- A session in which nothing has happened yet. -/
def freshSession : Session Environment := { environment := {} }

/-- Some program is built. -/
theorem exists_of_build (graph : Graph) (registry : Registry CatalogueImplementation)
    (device : DeviceCaps) (config : RuntimeConfig)
    (h : (build graph registry device config none freshSession).1.toOption.isSome = true) :
    ∃ program store after,
      build graph registry device config none freshSession = (.ok program, store, after) := by
  obtain ⟨program, hprogram⟩ := Option.isSome_iff_exists.1 h
  exact ⟨program, _, _, Prod.ext (toOption_eq_some_iff.1 hprogram) rfl⟩

end Program

end TensorEngine
