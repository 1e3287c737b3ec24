import TensorEngine.Proofs.Artifact.Trust
import TensorEngine.Proofs.Program.Storing

/-!
# Warm starts

A program whose extents are all known is built once over a store.  Whatever was in the store before,
a later build over the store that this leaves restores all instances, with the implementations and
the forms of the first program, and finalizes nothing.
-/

namespace TensorEngine

open CatalogueImplementation
open PrimitiveInstance (anyDevice fullRegistry negation pairLayout plannedBlob)

variable {graph : Graph} {registry : Registry CatalogueImplementation} {device : DeviceCaps}
  {config : RuntimeConfig}

namespace BuildState

variable {earlier : BuildState CatalogueImplementation Environment} {nodes : List Node}

/-- What was stored for all nodes is restored for all nodes, as long as the artifacts are the same
and no shared plan was lost. -/
theorem revives_buildInstances (state : BuildState CatalogueImplementation Environment)
    (hstores : ∀ node ∈ nodes, ∃ inst,
      earlier.Stores registry device node (graph.inputLayouts node) inst)
    (hartifacts : ∀ key, state.artifact? key = earlier.artifact? key)
    (hgrows : earlier.workspace.environment.plans.Grows state.workspace.environment.plans) :
    ∃ built state', state.buildInstances graph ⟨registry, device⟩ nodes = (.ok built, state') ∧
      List.Forall₂ (fun node built ↦ built.2 = true ∧ built.1.node = node ∧ ∀ inst,
        earlier.Stores registry device node (graph.inputLayouts node) inst →
          built.1.Revives inst) nodes built := by
  refine buildInstances_of_restore? graph ⟨registry, device⟩
    (fun state : BuildState CatalogueImplementation Environment ↦
      (∀ key, state.artifact? key = earlier.artifact? key) ∧
        earlier.workspace.environment.plans.Grows state.workspace.environment.plans)
    (fun node read ↦ read.node = node ∧ ∀ inst,
      earlier.Stores registry device node (graph.inputLayouts node) inst → read.Revives inst)
    nodes (fun node hnode state ⟨hartifacts, hgrows⟩ ↦ ?_) state ⟨hartifacts, hgrows⟩
  refine ⟨⟨fun key ↦ (state.artifact?_restore? _ _ _ key).trans (hartifacts key),
    hgrows.trans (state.grows_restore? _ _ _)⟩, ?_⟩
  have hrevives : ∀ inst, earlier.Stores registry device node (graph.inputLayouts node) inst →
      ∃ read, (state.restore? node (graph.inputLayouts node) ⟨registry, device⟩).1 = some read ∧
        read.Revives inst := fun inst hinst ↦
    (hinst.stays (hartifacts _) hgrows).exists_revives
  obtain ⟨inst, hinst⟩ := hstores node hnode
  obtain ⟨read, hread, hsame⟩ := hrevives inst hinst
  refine ⟨read, hread, hsame.node_eq.trans hinst.node_eq, fun other hother ↦ ?_⟩
  obtain ⟨again, hagain, hrevives⟩ := hrevives other hother
  obtain rfl := Option.some.inj (hread.symm.trans hagain)
  exact hrevives

end BuildState

namespace Program

variable {first : Program CatalogueImplementation} {store : ArtifactStore}
  {after : Option ArtifactStore} {session session' later : Session Environment}

/-- After a build with artifacts, all instances of the program are stored. -/
theorem exists_stores
    (hpersistable : ∀ descriptor ∈ registry.descriptors, descriptor.Persistable)
    (hfaithful : graph.SignaturesFaithful) (hstatic : graph.Static) (hroom : graph.HasRoom)
    (hconfig : config.artifactCache = true)
    (h : build graph registry device config (some store) session =
      (.ok first, after, session')) :
    ∃ state : BuildState CatalogueImplementation Environment,
      state.store = after ∧ state.workspace.session = session' ∧
        first.BuiltFrom graph registry device config session.granted ∧
        first.LaidOut fun node inst ↦
          state.Stores registry device node (graph.inputLayouts node) inst := by
  obtain ⟨built, state, hbuilt, hprogram, rfl, rfl⟩ := build_eq_ok_iff.1 h
  have hstart : (BuildState.start config (some store) session).Storing graph registry device :=
    ⟨congrArg Option.isSome (if_pos hconfig), Workspace.keepsFor_ofCapacity? (.inr hfaithful),
      Standard.kept_ofCapacity? (fun _ ↦ trivial) trivial⟩
  obtain ⟨hlaid, hfrom, _⟩ := laidOut_of_ofInstances (fun _ _ ↦ BuildState.Stores.node_eq)
    (BuildState.stores_buildInstances hpersistable hfaithful hstatic hroom hstart hbuilt) hprogram
  exact ⟨state, (if_pos hconfig).symm, rfl, hfrom, hlaid⟩

/-- One build is enough to start warm.  Over the reference, parallel and vendor implementations,
when all extents of a graph are known and the signatures of its nodes tell them apart, a build with
artifacts leaves a store from which the next build restores every instance, whatever was in the
store before.  The next build may follow at once, or after other programs have shared more plans.
The host has to grant it the memory that it granted the first one. -/
theorem restores_all_of_build
    (hpersistable : ∀ descriptor ∈ registry.descriptors, descriptor.Persistable)
    (hfaithful : graph.SignaturesFaithful) (hstatic : graph.Static) (hroom : graph.HasRoom)
    (hconfig : config.artifactCache = true)
    (h : build graph registry device config (some store) session =
      (.ok first, after, session'))
    (hgranted : later.granted = session.granted)
    (hgrows : session'.environment.plans.Grows later.environment.plans) :
    ∃ second after' later', build graph registry device config after later =
        (.ok second, after', later') ∧
      second.artifactHits = graph.size ∧
      List.Forall₂ PrimitiveInstance.Revives second.instances first.instances := by
  obtain ⟨state, rfl, rfl, hfrom, hlaid⟩ :=
    exists_stores hpersistable hfaithful hstatic hroom hconfig h
  have hstored : ∀ node ∈ graph.nodes, ∃ inst,
      state.Stores registry device node (graph.inputLayouts node) inst := by
    intro node hnode
    obtain ⟨p, hp⟩ := List.mem_iff_getElem?.1 hnode
    obtain ⟨inst, hinst, _⟩ := hlaid.exists_instance (hfrom.graph_eq.symm ▸ hp)
    exact ⟨inst, hinst⟩
  have hartifacts : ∀ key, (BuildState.start config state.store later :
      BuildState CatalogueImplementation Environment).artifact? key = state.artifact? key :=
    fun key ↦ BuildState.artifact?_start hconfig key
  obtain ⟨read, state', hread, hrevives⟩ := BuildState.revives_buildInstances
    (.start config state.store later) hstored hartifacts hgrows
  have hnodes : List.Forall₂ (fun node read ↦ read.1.node = node) graph.nodes read :=
    hrevives.imp fun _ _ h ↦ h.2.1
  obtain ⟨second, hsecond, hhits⟩ := exists_ofInstances hfrom hnodes state'.workspace.cache
  rw [← hgranted] at hsecond
  obtain ⟨hlaid', hfrom', _⟩ :
      second.LaidOut (fun node read ↦ read.node = node ∧ ∀ inst,
        state.Stores registry device node (graph.inputLayouts node) inst → read.Revives inst) ∧
      second.BuiltFrom graph registry device config later.granted ∧
      second.cache = state'.workspace.cache :=
    laidOut_of_ofInstances (fun _ _ h ↦ h.1) (hrevives.imp fun _ _ h ↦ h.2) hsecond
  refine ⟨second, _, _, build_eq_ok_iff.2 ⟨read, state', hread, hsecond, rfl, rfl⟩, ?_, ?_⟩
  · have hall : ∀ built ∈ read, built.2 = true :=
      forall_mem_of_forall₂ (hrevives.imp fun _ _ h ↦ h.1)
    rw [hhits, List.countP_eq_length.2 hall, ← hrevives.length_eq]
    rfl
  · exact hlaid'.forall₂ hlaid (hfrom'.graph_eq.trans hfrom.graph_eq.symm)
      fun _ _ inst hread hinst inputSlots _ inputSlots' _ ↦
        (hread.2 inst hinst).attachSlots inputSlots inputSlots' _ _

/-- The negation of two numbers, taken twice. -/
def negationsGraph : Graph where
  nodes := [⟨⟨0⟩, .parameter, [], [pairLayout]⟩, ⟨⟨1⟩, .unary .neg, [⟨0⟩], [pairLayout]⟩,
    ⟨⟨2⟩, .unary .neg, [⟨0⟩], [pairLayout]⟩]
  outputs := [⟨1⟩, ⟨2⟩]
  valid := by rfl

/-- A store with a plan of the negation for another number of elements. -/
def plannedStore : ArtifactStore :=
  ({} : ArtifactStore).put (negation.signature [pairLayout]) (plannedBlob 3 2048)

/-- A store may hold a plan for other numbers: the first build takes it over for both negations, and
so does the second, which restores the parameter as well. -/
theorem restores_all_of_build_negationsGraph : ∃ first second after after' session session',
    build negationsGraph fullRegistry anyDevice {}
      (some plannedStore) freshSession = (.ok first, after, session) ∧ first.artifactHits = 2 ∧
    build negationsGraph fullRegistry anyDevice {} after session =
      (.ok second, after', session') ∧ second.artifactHits = 3 ∧
    List.Forall₂ PrimitiveInstance.Revives second.instances first.instances := by
  have hanswer : (build negationsGraph fullRegistry anyDevice {}
      (some plannedStore) freshSession).1.toOption.map artifactHits = some 2 := by
    decide +kernel
  have hgranted : (build negationsGraph fullRegistry anyDevice {}
      (some plannedStore) freshSession).2.2.granted = freshSession.granted := by
    decide +kernel
  generalize hbuild : build negationsGraph fullRegistry anyDevice {} (some plannedStore)
    freshSession = answer at hanswer hgranted ⊢
  obtain ⟨result, after, session⟩ := answer
  obtain ⟨first, hfirst, hhits⟩ := Option.map_eq_some_iff.1 hanswer
  obtain rfl : result = .ok first := toOption_eq_some_iff.1 hfirst
  obtain ⟨second, after', session', hsecond, hall, hrevives⟩ := restores_all_of_build
    (fun _ ↦ Descriptor.persistable_of_mem) (by decide +kernel) (by decide +kernel)
    (by decide +kernel) rfl hbuild hgranted (.refl _)
  exact ⟨first, second, after, after', session, session', rfl, hhits, hsecond, hall, hrevives⟩

end Program

end TensorEngine
