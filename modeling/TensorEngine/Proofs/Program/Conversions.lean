import Mathlib.Data.List.ReduceOption
import TensorEngine.Proofs.Program.Build

/-!
# Recorded conversions

What is bound is marked when its descriptor takes the layouts of the node only after a conversion,
and a new program records the instances that are marked.  A selection carries the mark from the
registry, and a form in the cache that of the node it was made for, which is another node when two
signatures collide.  An instance that is restored is never marked.
-/

namespace TensorEngine

variable {ι ω : Type} [Implementation ι ω] {graph : Graph} {registry : Registry ι}
  {device : DeviceCaps} {config : RuntimeConfig} {node other : Node}
  {inst inst' : PrimitiveInstance ι} {workspace : Workspace ι ω}

def Graph.layouts (graph : Graph) (node : Node) : List Layout :=
  graph.inputLayouts node ++ node.outputs

/-- The bound implementation is marked just when its descriptor does not take the layouts as they
are. -/
def BoundImplementation.MarkedFor (bound : BoundImplementation ι) (registry : Registry ι)
    (layouts : List Layout) : Prop :=
  ∃ descriptor, registry.descriptor? bound.descriptor = some descriptor ∧
    bound.requiresConversion = !descriptor.takesExactly layouts

/-- What is bound for a selection carries its mark. -/
theorem Registry.Selects.markedFor {inputs : List Layout} {selection : Selection}
    {descriptor : Descriptor ι} {bound : BoundImplementation ι}
    (h : registry.Selects node inputs device selection descriptor)
    (hdescriptor : bound.descriptor = selection.descriptor)
    (hmark : bound.requiresConversion = selection.requiresConversion) :
    bound.MarkedFor registry (inputs ++ node.outputs) :=
  ⟨descriptor, hdescriptor ▸ h.descriptor_eq, hmark.trans h.requiresConversion_eq⟩

/-! ## Nodes that share forms -/

namespace Graph

/-- Another node with other layouts has the signature of a node, and there is a cache to share. -/
structure Collides (graph : Graph) (config : RuntimeConfig) (node other : Node) : Prop where
  mem : other ∈ graph.nodes
  enabled : config.implCacheCapacity ≠ 0
  signature_eq :
    other.signature (graph.inputLayouts other) = node.signature (graph.inputLayouts node)
  layouts_ne : graph.layouts other ≠ graph.layouts node

/-- Where signatures tell the nodes apart, none collide. -/
theorem not_collides (hnode : node ∈ graph.nodes)
    (hcache : config.implCacheCapacity = 0 ∨ graph.SignaturesFaithful) :
    ¬graph.Collides config node other := by
  intro h
  obtain ⟨_, hinputs, houtputs⟩ :=
    hcache.resolve_left h.enabled other h.mem node hnode h.signature_eq
  exact h.layouts_ne (by rw [layouts, layouts, hinputs, houtputs])

end Graph

/-- The bound implementation is marked for the node, or for one that collides with it. -/
def BoundImplementation.Marked (graph : Graph) (registry : Registry ι) (config : RuntimeConfig)
    (node : Node) (bound : BoundImplementation ι) : Prop :=
  ∃ other, (other = node ∨ graph.Collides config node other) ∧
    bound.MarkedFor registry (graph.layouts other)

/-- What is bound for a node is marked for it or for one that collides with it, and what is cached
is marked for a node with the signature that it is kept under. -/
def Standard.marks (ω : Type) (graph : Graph) (registry : Registry ι) (config : RuntimeConfig) :
    Standard ι ω where
  enabled := config.implCacheCapacity ≠ 0
  environment _ := True
  bound node bound := bound.Marked graph registry config node
  form node _ entry := entry.bound.Marked graph registry config node
  cached key entry := ∃ node ∈ graph.nodes,
    node.signature (graph.inputLayouts node) = key.1 ∧
      entry.bound.MarkedFor registry (graph.layouts node)

/-- A selection carries the mark for its node, finalizing keeps it, and the nodes of one signature
have the same layouts or collide. -/
theorem Standard.marks_upheld (hnode : node ∈ graph.nodes) (shapes : ConcreteShapes) :
    (marks ω graph registry config).Upheld registry device node (graph.inputLayouts node)
      shapes where
  candidate hselects := ⟨node, .inl rfl, hselects.markedFor rfl rfl⟩
  finalized hbound _ := ⟨trivial, fun _ _ ↦ hbound⟩
  keep := by
    rintro entry - ⟨other, hother, hmark⟩
    refine ⟨other, hother.elim (fun h ↦ h ▸ hnode) (·.mem), ?_, hmark⟩
    dsimp only
    exact hother.elim (fun h ↦ h ▸ rfl) (·.signature_eq)
  hit := by
    rintro entry henabled ⟨other, hmem, hsignature, hmark⟩
    dsimp only at hsignature
    by_cases hlayouts : graph.layouts other = graph.layouts node
    · exact ⟨node, .inl rfl, hlayouts ▸ hmark⟩
    · exact ⟨other, .inr ⟨hmem, henabled, hsignature, hlayouts⟩, hmark⟩
  again h := ⟨h, h⟩

/-! ## Building instances -/

/-- The instance of a node that was built, and whether it was restored: it is bound with a mark, or
restored without one. -/
structure PrimitiveInstance.BuiltAs (graph : Graph) (registry : Registry ι) (config : RuntimeConfig)
    (node : Node) (built : PrimitiveInstance ι × Bool) : Prop where
  node_eq : built.1.node = node
  unmarked : built.2 = true → built.1.requiresConversion = false
  marked : built.2 = false → ∃ bound, built.1.bound = some bound ∧
    bound.Marked graph registry config node

namespace BuildState

variable {state : BuildState ι ω}

/-- What is restored is not marked, and what is bound for a node is marked for it. -/
theorem buildInstance_marks (device : DeviceCaps) (hnode : node ∈ graph.nodes)
    (hkept : (Standard.marks ω graph registry config).Kept state.workspace) :
    let answer := state.buildInstance node (graph.inputLayouts node) ⟨registry, device⟩
    (Standard.marks ω graph registry config).Kept answer.2.workspace ∧
      ∀ built, answer.1 = .ok built →
        PrimitiveInstance.BuiltAs graph registry config node built := by
  have hrestored : (Standard.marks ω graph registry config).Kept
      (state.restore? node (graph.inputLayouts node) ⟨registry, device⟩).2.workspace :=
    kept_restore? hkept trivial
  rcases state.buildInstance_cases node (graph.inputLayouts node) ⟨registry, device⟩ with
    ⟨inst, state', hrestore, hbuild⟩ | ⟨state', hrestore, hbuild⟩
  · obtain ⟨_, _, _, _, _, _, _, rfl⟩ :=
      exists_readsBack_of_restore? (congrArg Prod.fst hrestore)
    rw [hrestore] at hrestored
    rw [hbuild]
    refine ⟨hrestored, fun built hbuilt ↦ ?_⟩
    obtain rfl := Except.ok.inj hbuilt
    exact ⟨rfl, fun _ ↦ rfl, nofun⟩
  · rw [hrestore] at hrestored
    rw [hbuild]
    obtain ⟨hkept', hbound⟩ := bindInstance_upheld
      (fun shapes ↦ Standard.marks_upheld hnode shapes) hrestored
    refine ⟨hkept', fun built hbuilt ↦ ?_⟩
    obtain ⟨inst, hinst, rfl⟩ := map_eq_ok_iff.1 hbuilt
    obtain ⟨rfl, _, husable⟩ := hbound inst hinst
    exact ⟨rfl, nofun, fun _ ↦ husable.exists_bound⟩

end BuildState

/-! ## Built programs -/

namespace PrimitiveInstance

/-- The conversion that an instance needs for some layouts, going by its descriptor. -/
def conversionFor? (registry : Registry ι) (inst : PrimitiveInstance ι) (layouts : List Layout) :
    Option FormatConversion :=
  if (inst.descriptor?.bind registry.descriptor?).any (!·.takesExactly layouts) then
    some ⟨inst.node.id, inst.implementationName?.getD "", Layout.texts inst.declaredInputs⟩
  else none

/-- A mark is a conversion that is needed. -/
theorem conversion?_eq_of_markedFor {bound : BoundImplementation ι} {layouts : List Layout}
    (hbound : inst.bound = some bound) (hmark : bound.MarkedFor registry layouts) :
    Program.conversion? inst = inst.conversionFor? registry layouts := by
  obtain ⟨descriptor, hdescriptor, hrequires⟩ := hmark
  simp only [Program.conversion?, conversionFor?, requiresConversion, descriptor?, hbound,
    Option.map_some, Option.getD_some, Option.bind_some, hdescriptor, Option.any_some, hrequires]

/-- What is recorded of an instance that was built: nothing when it was restored, and otherwise the
conversion that it needs for its node, or for one that collides with it. -/
theorem BuiltAs.exists_judge {built : PrimitiveInstance ι × Bool}
    (h : BuiltAs graph registry config node built) :
    ∃ judge : Option Node, judge.isNone = built.2 ∧
      (∀ other ∈ judge, other = node ∨ graph.Collides config node other) ∧
      Program.conversion? built.1 =
        judge.bind fun other ↦ built.1.conversionFor? registry (graph.layouts other) := by
  cases hrestored : built.2 with
  | true =>
    refine ⟨none, rfl, nofun, ?_⟩
    rw [Program.conversion?, h.unmarked hrestored]
    rfl
  | false =>
    obtain ⟨bound, hbound, other, hother, hmark⟩ := h.marked hrestored
    refine ⟨some other, rfl, fun _ hmem ↦ Option.some.inj hmem ▸ hother, ?_⟩
    exact conversion?_eq_of_markedFor hbound hmark

/-- What is recorded of all instances that were built. -/
theorem exists_judges {nodes : List Node} {built : List (PrimitiveInstance ι × Bool)}
    (h : List.Forall₂ (BuiltAs graph registry config) nodes built) :
    ∃ judges : List (Option Node),
      List.Forall₂ (fun node judge ↦ ∀ other ∈ judge,
        other = node ∨ graph.Collides config node other) nodes judges ∧
      judges.countP Option.isNone = built.countP Prod.snd ∧
      (built.map Prod.fst).map Program.conversion? =
        List.zipWith (fun inst judge ↦ judge.bind fun node ↦
          inst.conversionFor? registry (graph.layouts node)) (built.map Prod.fst) judges := by
  induction h with
  | nil => exact ⟨[], .nil, rfl, rfl⟩
  | cons hfirst _ ih =>
    obtain ⟨judge, hrestored, hjudge, hconversion⟩ := hfirst.exists_judge
    obtain ⟨judges, hjudges, hcount, hconversions⟩ := ih
    refine ⟨judge :: judges, .cons hjudge hjudges, ?_, ?_⟩
    · rw [List.countP_cons, List.countP_cons, hcount, hrestored]
    · rw [List.map_cons, List.map_cons, List.zipWith_cons_cons, hconversions, hconversion]

/-- Placing gives slots, and changes nothing else. -/
theorem forall₂_placeAll {plan : MemoryPlan} {insts : List (PrimitiveInstance ι)} :
    ∀ {pool pool' : MemoryPool} {placed : List (PrimitiveInstance ι)},
      placeAll plan pool insts = .ok (placed, pool') →
      List.Forall₂ (fun inst placed ↦ ∃ inputSlots outputSlot,
        placed = inst.attachSlots inputSlots outputSlot) insts placed := by
  induction insts with
  | nil =>
    intro pool pool' placed h
    obtain ⟨rfl, _⟩ := Prod.mk.inj (Except.ok.inj h)
    exact .nil
  | cons inst rest ih =>
    intro pool pool' placed h
    unfold placeAll at h
    obtain ⟨⟨first, pool₁⟩, hfirst, h⟩ := bind_eq_ok_iff.1 h
    obtain ⟨⟨others, pool₂⟩, hothers, h⟩ := bind_eq_ok_iff.1 h
    obtain ⟨rfl, _⟩ := Prod.mk.inj (Except.ok.inj h)
    refine .cons ?_ (ih hothers)
    unfold place at hfirst
    obtain ⟨inputSlots, _, hfirst⟩ := bind_eq_ok_iff.1 hfirst
    obtain ⟨outputSlot, _, hfirst⟩ := bind_eq_ok_iff.1 hfirst
    obtain ⟨_, _, hfirst⟩ := bind_eq_ok_iff.1 hfirst
    exact ⟨inputSlots, outputSlot, (Prod.mk.inj (Except.ok.inj hfirst)).1.symm⟩

end PrimitiveInstance

namespace Program

/-- The answer of a build, or of a rebuild. -/
inductive Built (ω : Type) [Implementation ι ω] (program : Program ι) : Prop
  | build {graph : Graph} {registry : Registry ι} {device : DeviceCaps} {config : RuntimeConfig}
      {store after : Option ArtifactStore} {session session' : Session ω}
      (h : build graph registry device config store session = (.ok program, after, session'))
  | rebuild {earlier : Program ι} {store after : Option ArtifactStore}
      {session session' : Session ω}
      (h : earlier.rebuild store session = (.ok (), program, after, session'))

/-- The conversions of the instances, each judged by the layouts of a node, or by none. -/
def conversionsBy (program : Program ι) (judges : List (Option Node)) : List FormatConversion :=
  (List.zipWith (fun inst judge ↦ judge.bind fun node ↦
    inst.conversionFor? program.registry (program.graph.layouts node))
    program.instances judges).reduceOption

/-- A program whose conversions are judged by the nodes of their instances, or by nodes that collide
with them; those that were restored have no judge. -/
structure Judged (program : Program ι) (judges : List (Option Node)) : Prop where
  instances_eq : program.instances.map (·.node) = program.graph.nodes
  serve : List.Forall₂ (fun node judge ↦ ∀ other ∈ judge,
    other = node ∨ program.graph.Collides program.config node other) program.graph.nodes judges
  hits : judges.countP Option.isNone = program.artifactHits
  conversions_eq : program.conversions = program.conversionsBy judges

/-- A program of instances that were built lists what is recorded of them. -/
theorem exists_judged_of_ofInstances {program : Program ι}
    {built : List (PrimitiveInstance ι × Bool)} {cache : Option (ImplementationCache ι)}
    (hbuilt : List.Forall₂ (PrimitiveInstance.BuiltAs graph registry config) graph.nodes built)
    {granted : Nat}
    (h : ofInstances graph registry device config built cache granted = .ok program) :
    ∃ judges, program.Judged judges := by
  unfold ofInstances at h
  obtain ⟨plan, _, h⟩ := bind_eq_ok_iff.1 h
  obtain ⟨pool, _, h⟩ := bind_eq_ok_iff.1 h
  obtain ⟨⟨placed, pool'⟩, hplaced, h⟩ := bind_eq_ok_iff.1 h
  obtain rfl := Except.ok.inj h
  have hslots := PrimitiveInstance.forall₂_placeAll hplaced
  have hsame : ∀ {γ : Type} (f : PrimitiveInstance ι → γ),
      (∀ inst inputSlots outputSlot, f (inst.attachSlots inputSlots outputSlot) = f inst) →
      placed.map f = (built.map Prod.fst).map f := by
    intro γ f hf
    rw [← List.forall₂_eq_eq_eq, List.forall₂_map_left_iff, List.forall₂_map_right_iff]
    refine hslots.flip.imp ?_
    rintro _ inst ⟨inputSlots, outputSlot, rfl⟩
    exact hf inst inputSlots outputSlot
  obtain ⟨judges, hjudges, hcount, hconversions⟩ := PrimitiveInstance.exists_judges hbuilt
  refine ⟨judges, ?_, hjudges, hcount, ?_⟩
  · rw [hsame _ fun _ _ _ ↦ rfl, ← List.forall₂_eq_eq_eq, List.forall₂_map_left_iff,
      List.forall₂_map_left_iff]
    exact hbuilt.flip.imp fun _ _ h ↦ h.node_eq
  · have hjudge : ∀ insts : List (PrimitiveInstance ι),
        List.zipWith (fun inst judge ↦ judge.bind fun node ↦
          inst.conversionFor? registry (graph.layouts node)) insts judges =
        List.zipWith (fun convert judge ↦ judge.bind fun node ↦ convert (graph.layouts node))
          (insts.map (·.conversionFor? registry)) judges := fun insts ↦ by
      rw [List.zipWith_map_left]
    rw [conversionsBy, hjudge, hsame _ fun _ _ _ ↦ rfl, ← hjudge, ← hconversions,
      List.reduceOption]
    simp only [List.filterMap_map]
    rfl

/-- Where signatures tell the nodes apart and nothing was restored, exactly those instances are
listed that need a conversion for their own nodes. -/
theorem Judged.conversions_eq_of_faithful {program : Program ι} {judges : List (Option Node)}
    (h : program.Judged judges)
    (hcache : program.config.implCacheCapacity = 0 ∨ program.graph.SignaturesFaithful)
    (hhits : program.artifactHits = 0) :
    program.conversions = program.instances.filterMap fun inst ↦
      inst.conversionFor? program.registry (program.graph.layouts inst.node) := by
  have hnone : ∀ judge ∈ judges, judge.isNone = false := fun judge hmem ↦
    Bool.eq_false_iff.2 (List.countP_eq_zero.1 (h.hits.trans hhits) judge hmem)
  have hserve := (List.forall₂_and_left _ _).2 ⟨fun _ hnode ↦ hnode, h.serve⟩
  have hjudges : judges = program.instances.map fun inst ↦ some inst.node := by
    have hown := ((List.forall₂_and_left _ _).2 ⟨hnone, hserve.flip⟩).imp
      fun judge node ⟨hsome, hnode, hjudge⟩ ↦ show judge = some node by
        obtain ⟨other, rfl⟩ := Option.isSome_iff_exists.1 (Option.isNone_eq_false_iff.1 hsome)
        exact congrArg some ((hjudge other rfl).resolve_right (Graph.not_collides hnode hcache))
    rw [← h.instances_eq, List.forall₂_map_right_iff] at hown
    rwa [← List.forall₂_eq_eq_eq, List.forall₂_map_right_iff]
  rw [h.conversions_eq, conversionsBy, hjudges, List.zipWith_map_right, List.zipWith_self,
    List.reduceOption, List.filterMap_map]
  rfl

/-- The conversions that a new program lists. -/
theorem conversions_spec {program : Program ι} (h : program.Built ω) :
    ∃ judges, program.Judged judges ∧
      (program.config.implCacheCapacity = 0 ∨ program.graph.SignaturesFaithful →
        program.artifactHits = 0 → program.conversions = program.instances.filterMap fun inst ↦
          inst.conversionFor? program.registry (program.graph.layouts inst.node)) := by
  obtain ⟨graph, registry, device, config, store, after, session, session', h⟩ :
      ∃ (graph : Graph) (registry : Registry ι) (device : DeviceCaps) (config : RuntimeConfig)
        (store after : Option ArtifactStore) (session session' : Session ω),
        build graph registry device config store session = (.ok program, after, session') := by
    cases h with
    | build h => exact ⟨_, _, _, _, _, _, _, _, h⟩
    | rebuild h =>
      unfold rebuild at h
      split at h
      · rename_i hbuild
        obtain ⟨_, rfl, rfl, rfl⟩ := by simpa only [Prod.mk.injEq] using h
        exact ⟨_, _, _, _, _, _, _, _, hbuild⟩
      · exact absurd (Prod.mk.inj h).1 error_ne_ok
  obtain ⟨built, state, hbuilt, hprogram, _⟩ := exists_built h
  have hempty : (Standard.marks ω graph registry config).Kept
      ⟨ImplementationCache.ofCapacity? config.implCacheCapacity,
        session.scope Profile.buildScope⟩ := Standard.kept_ofCapacity? id trivial
  obtain ⟨_, hinstances⟩ := BuildState.buildInstances_induction graph ⟨registry, device⟩
    (fun state : BuildState ι ω ↦ (Standard.marks ω graph registry config).Kept state.workspace)
    (PrimitiveInstance.BuiltAs graph registry config)
    (fun node hnode state hkept ↦ BuildState.buildInstance_marks device hnode hkept)
    graph.nodes (fun _ hnode ↦ hnode) ⟨if config.artifactCache then store else none, _⟩ hempty
  rw [hbuilt] at hinstances
  obtain ⟨judges, hjudged⟩ := exists_judged_of_ofInstances (hinstances built rfl) hprogram
  exact ⟨judges, hjudged, hjudged.conversions_eq_of_faithful⟩

/-! ## A conversion that is forgotten -/

/-- Two numbers in another format. -/
def reorderGraph : Graph where
  nodes := [
    ⟨⟨0⟩, .parameter, [], [⟨⟨[.fixed 2]⟩, .f32, .rowMajor⟩]⟩,
    ⟨⟨1⟩, .reorder .blocked16, [⟨0⟩], [⟨⟨[.fixed 2]⟩, .f32, .blocked16⟩]⟩]
  outputs := [⟨1⟩]
  valid := by rfl

/-- Changing the format is done by an implementation that takes any. -/
theorem conversions_spec_reorderGraph : ∃ program : Program CatalogueImplementation,
    program.Built Environment ∧ ∃ judges, program.Judged judges ∧
      (program.config.implCacheCapacity = 0 ∨ program.graph.SignaturesFaithful →
        program.artifactHits = 0 → program.conversions = program.instances.filterMap fun inst ↦
          inst.conversionFor? program.registry (program.graph.layouts inst.node)) := by
  obtain ⟨program, store, after, hbuild⟩ :=
    exists_of_build reorderGraph referenceRegistry openDevice {} (by decide +kernel)
  exact ⟨program, .build hbuild, conversions_spec (.build hbuild)⟩

/-- The conversions of a program that is built twice and then built anew, against one store. -/
def conversionsAgain (graph : Graph) (registry : Registry CatalogueImplementation)
    (device : DeviceCaps) (config : RuntimeConfig) :
    Except RuntimeError (List (List FormatConversion)) := do
  let (first, store, session) := build graph registry device config (some {}) freshSession
  let (second, store, session) := build graph registry device config store session
  let (third, rebuilt, _) := (← second).rebuild store session
  third
  return [(← first).conversions, (← second).conversions, rebuilt.conversions]

/-- The same conversion is listed when the instance is bound, and not when it is restored. -/
theorem conversions_forgotten :
    conversionsAgain reorderGraph referenceRegistry openDevice {} =
      .ok [[⟨⟨1⟩, "ref.reorder", "(F32[2]/RowMajor)"⟩], [], []] := by
  decide +kernel

end Program

end TensorEngine
