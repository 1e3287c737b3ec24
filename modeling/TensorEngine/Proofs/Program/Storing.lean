import TensorEngine.Proofs.Artifact.Writing
import TensorEngine.Proofs.Operation.Acceptance
import TensorEngine.Proofs.Program.Recording

/-!
# What a build leaves in the store

When all extents of a graph are known and artifacts are in use, every instance of a new program is
either restored from the artifact of its node or finalized and written down.  Either way the store
has an artifact from which the instance can be restored, and it keeps it: nodes of the same
signature restore from this artifact themselves, so they write none in its place.
-/

namespace TensorEngine

open CatalogueImplementation
open PrimitiveInstance (ofArtifact)

variable {graph : Graph} {registry : Registry CatalogueImplementation} {device : DeviceCaps}
  {node other : Node} {declared declared' : List Layout} {shapes : ConcreteShapes}

/-! ## Graphs with known extents -/

namespace Graph

/-- All extents are known. -/
def Static (graph : Graph) : Prop := ∀ node ∈ graph.nodes, node.output.shape.isStatic = true

instance (graph : Graph) : Decidable graph.Static :=
  inferInstanceAs (Decidable (∀ node ∈ graph.nodes, _ = _))

/-- The host grants a block for as many extents as a result has axes.  Building puts the extents of
every node in such a block itself; only for more than a thousand million axes is one refused. -/
def HasRoom (graph : Graph) : Prop :=
  ∀ node ∈ graph.nodes, reserveExtents Size.hostBlock node.output.shape.rank = .ok ()

instance (graph : Graph) : Decidable graph.HasRoom :=
  inferInstanceAs (Decidable (∀ node ∈ graph.nodes, _ = _))

end Graph

/-- A constant has as many extents as its declared result. -/
theorem Graph.length_dims_of_constant {tensor : HostTensor} (hnode : node ∈ graph.nodes)
    (hop : node.op = .constant tensor) : tensor.dims.length = node.output.shape.rank := by
  obtain ⟨p, hp⟩ := List.mem_iff_getElem?.1 hnode
  have hkind : node.kind = .constant := by
    rw [Node.kind, hop]
    rfl
  obtain ⟨layout, hlayout, _, hrank⟩ :=
    (Graph.fits hp).derived.resolve_left (by rw [hkind]; decide)
  have hnone : graph.inputLayouts node = [] := by
    refine List.length_eq_zero_iff.1 ((Graph.length_inputLayouts hp).trans ?_)
    rw [hop]
    rfl
  rw [hop, hnone] at hlayout
  obtain rfl := Except.ok.inj hlayout
  rw [← hrank]
  exact (List.length_map _).symm

/-- Declared operands are results of other nodes. -/
theorem Graph.exists_node_of_mem_inputLayouts {layout : Layout}
    (h : layout ∈ graph.inputLayouts node) : ∃ other ∈ graph.nodes, other.output = layout := by
  obtain ⟨input, _, hlayout⟩ := List.mem_filterMap.1 h
  obtain ⟨other, hother, rfl⟩ := Option.map_eq_some_iff.1 hlayout
  exact ⟨other, List.mem_of_find?_eq_some hother, rfl⟩

theorem Graph.length_inputLayouts_le (hnode : node ∈ graph.nodes) :
    (graph.inputLayouts node).length ≤ 2 := by
  obtain ⟨p, hp⟩ := List.mem_iff_getElem?.1 hnode
  rw [Graph.length_inputLayouts hp]
  cases node.op <;> simp [OpSpec.arity]

namespace Graph.Static

/-- The extents of a result are known, and there is room for them. -/
theorem exists_dims (hstatic : graph.Static) (hroom : graph.HasRoom) (hnode : node ∈ graph.nodes) :
    ∃ dims, node.output.shape.staticDims? = some dims ∧
      reserveExtents Size.hostBlock dims.length = .ok () := by
  obtain ⟨dims, hdims, hlength⟩ := Shape.exists_staticDims (hstatic node hnode)
  exact ⟨dims, hdims, hlength ▸ hroom node hnode⟩

theorem exists_inputDims (hstatic : graph.Static) (hroom : graph.HasRoom) (node : Node) :
    ∃ inputs, (graph.inputLayouts node).mapM (fun layout ↦ layout.shape.staticDims?) = some inputs ∧
      ∀ dims ∈ inputs, reserveExtents Size.hostBlock dims.length = .ok () := by
  have hlayouts : ∀ layout ∈ graph.inputLayouts node, ∃ dims,
      layout.shape.staticDims? = some dims ∧
        reserveExtents Size.hostBlock dims.length = .ok () := by
    intro layout hmem
    obtain ⟨other, hother, rfl⟩ := Graph.exists_node_of_mem_inputLayouts hmem
    exact hstatic.exists_dims hroom hother
  obtain ⟨inputs, hinputs⟩ := exists_forall₂ hlayouts
  exact ⟨inputs, mapM_eq_some_iff.2 (hinputs.imp fun _ _ h ↦ h.1),
    forall_mem_of_forall₂ (hinputs.imp fun _ _ h ↦ h.2)⟩

/-- All extents of a node are known, and there is room for them. -/
theorem exists_staticShapes (hstatic : graph.Static) (hroom : graph.HasRoom)
    (hnode : node ∈ graph.nodes) :
    ∃ shapes, node.staticShapes? (graph.inputLayouts node) = some shapes ∧ shapes.Roomy := by
  obtain ⟨inputs, hinputs, hgranted⟩ := hstatic.exists_inputDims hroom node
  obtain ⟨dims, hshapes, hreserve⟩ : ∃ dims, node.staticShapes? (graph.inputLayouts node) =
      some ⟨inputs, [dims]⟩ ∧ reserveExtents Size.hostBlock dims.length = .ok () := by
    unfold Node.staticShapes?
    rw [hinputs]
    cases hop : node.op with
    | constant tensor =>
      refine ⟨tensor.dims, rfl, ?_⟩
      rw [Graph.length_dims_of_constant hnode hop]
      exact hroom node hnode
    | parameter | binary | unary | matMul | reduce | reshape | reorder =>
      obtain ⟨dims, hdims, hreserve⟩ := hstatic.exists_dims hroom hnode
      refine ⟨dims, ?_, hreserve⟩
      show (node.output.shape.staticDims?).bind _ = _
      rw [hdims]
      rfl
  have hfew : inputs.length ≤ 2 :=
    (mapM_eq_some_iff.1 hinputs).length_eq ▸ Graph.length_inputLayouts_le hnode
  refine ⟨⟨inputs, [dims]⟩, hshapes, Nat.lt_of_le_of_lt hfew (by decide),
    (by decide : 1 < Wire.wordRange 8), fun other hmem ↦ ?_⟩
  rcases List.mem_append.1 hmem with hmem | hmem
  · exact hgranted other hmem
  · obtain rfl := List.mem_singleton.1 hmem
    exact hreserve

end Graph.Static

/-! ## Artifacts of nodes -/

/-- Nodes of the same operation and signature read the same back. -/
theorem PrimitiveInstance.ReadsBack.congr {blob : ArtifactBlob} {env env' : Environment}
    {id : DescriptorId} {descriptor : Descriptor CatalogueImplementation} {form : FinalizedForm}
    {impl : CatalogueImplementation}
    (h : ReadsBack blob node declared registry device env id descriptor form impl env')
    (hpersistable : descriptor.Persistable) (hop : node.op = other.op)
    (hsignature : node.signature declared = other.signature declared') :
    ReadsBack blob other declared' registry device env id descriptor form impl env' := by
  obtain ⟨⟨hdevice, hkind, hheader, henabled⟩, hasks, htakes, hshapes⟩ := h
  refine ⟨⟨hdevice, ?_, hheader.trans hsignature, henabled⟩, hasks, ?_, hshapes⟩
  · rw [hkind, Node.kind, Node.kind, hop]
  · rw [← hpersistable.instantiate_congr hop]
    exact htakes

namespace BuildState

variable {state state' : BuildState CatalogueImplementation Environment}
  {inst : PrimitiveInstance CatalogueImplementation}

/-- The store has an artifact for the node that is read back as the instance, whatever plans are
shared besides. -/
def Stores (registry : Registry CatalogueImplementation) (device : DeviceCaps) (node : Node)
    (declared : List Layout) (inst : PrimitiveInstance CatalogueImplementation)
    (state : BuildState CatalogueImplementation Environment) : Prop :=
  ∃ blob, state.artifact? (node.signature declared) = some blob ∧
    ∀ env : Environment, state.workspace.environment.plans.Grows env.plans → ∃ read env',
      ofArtifact blob node declared registry device env = (.ok read, env') ∧ read.Revives inst

/-- What is stored stays so as long as the artifact stays. -/
theorem Stores.stays (h : state.Stores registry device node declared inst)
    (hartifact : state'.artifact? (node.signature declared) =
      state.artifact? (node.signature declared))
    (hgrows : state.workspace.environment.plans.Grows state'.workspace.environment.plans) :
    state'.Stores registry device node declared inst := by
  obtain ⟨blob, hblob, hread⟩ := h
  exact ⟨blob, hartifact.trans hblob, fun env henv ↦ hread env (hgrows.trans henv)⟩

/-- Where something has an artifact, something is restored for every node of the same operation and
signature. -/
theorem Stores.exists_restored (h : state.Stores registry device node declared inst)
    (hpersistable : ∀ descriptor ∈ registry.descriptors, descriptor.Persistable)
    (hop : node.op = other.op) (hsignature : node.signature declared = other.signature declared') :
    ∃ restored, (state.restore? other declared' ⟨registry, device⟩).1 = some restored := by
  obtain ⟨blob, hblob, hread⟩ := h
  obtain ⟨read, env', hread, _⟩ := hread state.workspace.environment (.refl _)
  obtain ⟨id, descriptor, form, impl, hreads, _⟩ := PrimitiveInstance.ofArtifact_eq_ok_iff.1 hread
  have hagain := PrimitiveInstance.ofArtifact_eq_ok_iff.2 ⟨id, descriptor, form, impl,
    hreads.congr (hpersistable descriptor (List.mem_of_getElem? hreads.asks.descriptor_eq)) hop
      hsignature, rfl⟩
  rw [hsignature] at hblob
  rw [fst_restore?_of_artifact? hblob, hagain]
  exact ⟨_, rfl⟩

/-- What has an artifact is restored. -/
theorem Stores.exists_revives (h : state.Stores registry device node declared inst) :
    ∃ read, (state.restore? node declared ⟨registry, device⟩).1 = some read ∧
      read.Revives inst := by
  obtain ⟨blob, hblob, hread⟩ := h
  obtain ⟨read, env', hread, hrevives⟩ := hread state.workspace.environment (.refl _)
  rw [fst_restore?_of_artifact? hblob, hread]
  exact ⟨read, rfl, hrevives⟩

theorem Stores.node_eq (h : state.Stores registry device node declared inst) :
    inst.node = node := by
  obtain ⟨blob, _, hread⟩ := h
  obtain ⟨read, env', hread, hrevives⟩ := hread state.workspace.environment (.refl _)
  obtain ⟨_, _, _, _, _, rfl⟩ := PrimitiveInstance.ofArtifact_eq_ok_iff.1 hread
  exact hrevives.node_eq.symm

/-- What is restored stays in the store. -/
theorem stores_restore? (hpersistable : ∀ descriptor ∈ registry.descriptors, descriptor.Persistable)
    (h : (state.restore? node declared ⟨registry, device⟩).1 = some inst) :
    (state.restore? node declared ⟨registry, device⟩).2.Stores registry device node declared
      inst := by
  obtain ⟨blob, id, descriptor, form, impl, hblob, hreads, rfl⟩ := exists_readsBack_of_restore? h
  refine ⟨blob, (state.artifact?_restore? _ _ _ _).trans hblob, fun env hgrows ↦ ?_⟩
  obtain ⟨env', htakes⟩ := deserialize_of_grows
    (hpersistable descriptor (List.mem_of_getElem? hreads.asks.descriptor_eq)) hreads.takes hgrows
  exact ⟨_, env', PrimitiveInstance.ofArtifact_eq_ok_iff.2 ⟨id, descriptor, form, impl,
    ⟨hreads.fits, hreads.asks, htakes, hreads.shapes_eq⟩, rfl⟩, ⟨rfl, rfl, rfl, rfl, rfl, rfl⟩⟩

/-! ## Builds -/

/-- Artifacts are in use, what the cache holds is on record, and forms are for the extents that they
are kept under. -/
structure Storing (graph : Graph) (registry : Registry CatalogueImplementation)
    (device : DeviceCaps) (state : BuildState CatalogueImplementation Environment) : Prop where
  store : state.store.isSome = true
  recorded : state.workspace.Recorded graph registry device
  shaped : (Standard.shaped CatalogueImplementation Environment).Kept state.workspace

/-- An instance that is ready for extents for which there is room is stored. -/
theorem stores_save
    (hpersistable : ∀ descriptor ∈ registry.descriptors, descriptor.Persistable)
    (hstore : state.store.isSome = true)
    (hrecorded : inst.Recorded registry device state.workspace.environment.plans)
    (hready : (Standard.shaped CatalogueImplementation Environment).Ready shapes inst)
    (hroomy : shapes.Roomy) :
    (state.save inst ⟨registry, device⟩).Stores registry device inst.node inst.declaredInputs
      inst := by
  obtain ⟨hstate, shaped, _, hshaped, hshapes⟩ := hready
  obtain ⟨entry, hbound, hform, descriptor, hentry⟩ := hrecorded.ready hstate
  have hsame : shaped.form = entry.form := Option.some.inj (hshaped.symm.trans hform)
  obtain ⟨payload, hwritten, hread⟩ := PrimitiveInstance.exists_payload hentry
    (hpersistable descriptor (List.mem_of_getElem? hentry.stems.descriptor_eq)) hstate hbound hform
  refine ⟨_, artifact?_save_self hstore hwritten, fun env hgrows ↦ hread ?_ env ?_⟩
  · rw [← hsame, show shaped.form.shapes = shapes from hshapes]
    exact hroomy
  · rw [workspace_save] at hgrows
    exact hgrows.agrees

/-- An instance that was finalized for its extents is stored, and no other artifact changes. -/
theorem stores_bindInstance
    (hpersistable : ∀ descriptor ∈ registry.descriptors, descriptor.Persistable)
    (hnode : node ∈ graph.nodes)
    (hshapes : node.staticShapes? (graph.inputLayouts node) = some shapes) (hroomy : shapes.Roomy)
    (h : state.Storing graph registry device) :
    let answer := state.bindInstance node (graph.inputLayouts node) ⟨registry, device⟩
    answer.2.Storing graph registry device ∧
      (∀ key, key ≠ node.signature (graph.inputLayouts node) →
        answer.2.artifact? key = state.artifact? key) ∧
      ∀ inst, answer.1 = .ok inst →
        answer.2.Stores registry device node (graph.inputLayouts node) inst := by
  have hholds := Standard.shaped_holds keepsShapes graph registry device
  have hrecords := records_bindInstance hnode h.recorded
  obtain ⟨hshaped, _⟩ := bindInstance_upheld (hholds.upheld node hnode) h.shaped
  have hbinds := state.binds_bindInstance node (graph.inputLayouts node) registry device
  generalize state.bindInstance node (graph.inputLayouts node) ⟨registry, device⟩ = answer
    at hrecords hshaped hbinds
  cases hbinds with
  | unmatched => exact ⟨h, fun _ _ ↦ rfl, fun _ h ↦ absurd h error_ne_ok⟩
  | undetermined _ hnone =>
    rw [hshapes] at hnone
    cases hnone
  | unprepared => exact ⟨⟨h.store, hrecords.cached, hshaped⟩, fun _ _ ↦ rfl,
      fun _ h ↦ absurd h error_ne_ok⟩
  | @prepared inst inst' _ transition workspace hnew hshapes' hprepare =>
    obtain rfl := Option.some.inj (hshapes.symm.trans hshapes')
    have hready := hnew.prepares (hholds.upheld node hnode shapes) h.shaped
    rw [hprepare] at hready
    obtain ⟨hsame, hrecorded⟩ := hrecords.recorded inst' rfl
    rw [workspace_save] at hrecorded
    have hnode' : inst'.node = node := hsame
    have hdeclared : inst'.declaredInputs = graph.inputLayouts node :=
      hready.same.declared_eq.trans hnew.declared_eq
    have hstores : (save { state with workspace } inst' ⟨registry, device⟩).Stores registry device
        inst'.node inst'.declaredInputs inst' :=
      stores_save hpersistable h.store hrecorded (hready.ready transition rfl) hroomy
    rw [hnode', hdeclared] at hstores
    refine ⟨⟨isSome_store_save.trans h.store, hrecords.cached, hshaped⟩, fun key hkey ↦ ?_,
      fun built hbuilt ↦ ?_⟩
    · refine artifact?_save_of_ne ?_
      rw [PrimitiveInstance.signature, hdeclared, hnode']
      exact hkey
    · obtain rfl := Except.ok.inj hbuilt
      exact hstores

theorem Storing.restore? (h : state.Storing graph registry device) (node : Node)
    (declared : List Layout) :
    (state.restore? node declared ⟨registry, device⟩).2.Storing graph registry device := by
  obtain ⟨hstore, hcache, _⟩ := state.restore?_spec node declared ⟨registry, device⟩
  refine ⟨?_, h.recorded.of_cache_eq hcache (state.grows_restore? node declared _),
    kept_restore? h.shaped trivial⟩
  rw [hstore, Option.isSome_map]
  exact h.store

/-- However an instance is built, it is stored, and what was stored stays so. -/
theorem stores_buildInstance
    (hpersistable : ∀ descriptor ∈ registry.descriptors, descriptor.Persistable)
    (hfaithful : graph.SignaturesFaithful) (hstatic : graph.Static) (hroom : graph.HasRoom)
    (hnode : node ∈ graph.nodes) (h : state.Storing graph registry device) :
    let answer := state.buildInstance node (graph.inputLayouts node) ⟨registry, device⟩
    answer.2.Storing graph registry device ∧
      (∀ built, answer.1 = .ok built →
        answer.2.Stores registry device node (graph.inputLayouts node) built.1) ∧
      ∀ other ∈ graph.nodes, ∀ inst,
        state.Stores registry device other (graph.inputLayouts other) inst →
          answer.2.Stores registry device other (graph.inputLayouts other) inst := by
  have hstoring := h.restore? node (graph.inputLayouts node)
  have hgrows := state.grows_restore? node (graph.inputLayouts node) ⟨registry, device⟩
  have hsame := state.artifact?_restore? node (graph.inputLayouts node) ⟨registry, device⟩
  rcases state.buildInstance_cases node (graph.inputLayouts node) ⟨registry, device⟩ with
    ⟨inst, state', hrestore, hbuild⟩ | ⟨state', hrestore, hbuild⟩
  · have hstores := stores_restore? hpersistable (congrArg Prod.fst hrestore)
    rw [hrestore] at hstoring hgrows hsame hstores
    rw [hbuild]
    refine ⟨hstoring, fun built hbuilt ↦ ?_, fun other _ _ hother ↦ hother.stays (hsame _) hgrows⟩
    obtain rfl := Except.ok.inj hbuilt
    exact hstores
  · have hnone : ∀ restored, (state.restore? node (graph.inputLayouts node)
        ⟨registry, device⟩).1 ≠ some restored := by
      rw [hrestore]
      exact fun _ ↦ (Option.some_ne_none _).symm
    rw [hrestore] at hstoring hgrows hsame
    rw [hbuild]
    obtain ⟨shapes, hshapes, hroomy⟩ := hstatic.exists_staticShapes hroom hnode
    obtain ⟨hstoring', hothers, hstores⟩ :=
      stores_bindInstance hpersistable hnode hshapes hroomy hstoring
    have hgrows' := (records_bindInstance hnode hstoring.recorded).grows
    refine ⟨hstoring', fun built hbuilt ↦ ?_, fun other hother inst hinst ↦ ?_⟩
    · obtain ⟨inst, hinst, rfl⟩ := map_eq_ok_iff.1 hbuilt
      exact hstores inst hinst
    · have hkey : other.signature (graph.inputLayouts other) ≠
          node.signature (graph.inputLayouts node) := by
        intro hkey
        obtain ⟨hop, _⟩ := hfaithful other hother node hnode hkey
        obtain ⟨restored, hrestored⟩ := hinst.exists_restored hpersistable hop hkey
        exact hnone restored hrestored
      exact hinst.stays ((hothers _ hkey).trans (hsame _)) (hgrows.trans hgrows')

/-- When all instances are built, all are stored. -/
theorem stores_buildInstances
    (hpersistable : ∀ descriptor ∈ registry.descriptors, descriptor.Persistable)
    (hfaithful : graph.SignaturesFaithful) (hstatic : graph.Static) (hroom : graph.HasRoom)
    (h : state.Storing graph registry device) {built : List _}
    (hbuilt : state.buildInstances graph ⟨registry, device⟩ graph.nodes = (.ok built, state')) :
    List.Forall₂ (fun node built ↦
      state'.Stores registry device node (graph.inputLayouts node) built.1) graph.nodes built := by
  obtain ⟨_, hstores, _⟩ := buildInstances_stable graph ⟨registry, device⟩
    (Storing graph registry device)
    (fun state node built ↦ state.Stores registry device node (graph.inputLayouts node) built.1)
    (fun node hnode state h ↦ by
      obtain ⟨hstoring, hstores, hstays⟩ :=
        stores_buildInstance hpersistable hfaithful hstatic hroom hnode h
      exact ⟨hstoring, hstores, fun other hother built ↦ hstays other hother built.1⟩)
    graph.nodes (fun _ ↦ id) state h
  rw [hbuilt] at hstores
  exact hstores built rfl

end BuildState

end TensorEngine
