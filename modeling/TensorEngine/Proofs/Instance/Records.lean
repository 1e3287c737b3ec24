import TensorEngine.Proofs.Artifact.Payload
import TensorEngine.Proofs.Instance.Specializing

/-!
# What is on record of an implementation

A reference, parallel or vendor implementation that was finalized, or read back, holds all that its
form was made of; a parallel one works by the plan that is shared for its kernel and numbers.
Shared plans are never replaced, so what is on record stays true while other implementations are
finalized, read back or run.
-/

namespace TensorEngine

open CatalogueImplementation

variable {graph : Graph} {registry : Registry CatalogueImplementation} {device : DeviceCaps}
  {node other : Node} {declared : List Layout} {shapes : ConcreteShapes} {op : OpSpec}
  {form : FinalizedForm} {table table' table'' : PlanTable} {plan : KernelPlan}
  {env env' : Environment} {impl impl' : CatalogueImplementation}
  {descriptor : Descriptor CatalogueImplementation}
  {bound : BoundImplementation CatalogueImplementation}
  {entry : FinalizedImplementation CatalogueImplementation}

/-! ## Shared plans -/

namespace PlanTable

/-- The plan is the one that is shared for its kernel and numbers. -/
def Shares (table : PlanTable) (plan : KernelPlan) : Prop :=
  table.find? plan.kernel plan.elements plan.inner = some plan

/-- Plans that are shared stay shared. -/
def Grows (table table' : PlanTable) : Prop := ∀ plan, table.Shares plan → table'.Shares plan

/-- No other plans are shared in the place of those of the table. -/
def Agrees (table table' : PlanTable) : Prop :=
  ∀ plan, table.Shares plan → (table'.adopt plan).1 = plan

theorem Grows.refl (table : PlanTable) : table.Grows table := fun _ ↦ id

theorem Grows.trans (h : table.Grows table') (h' : table'.Grows table'') : table.Grows table'' :=
  fun plan hplan ↦ h' plan (h plan hplan)

theorem Grows.agrees (h : table.Grows table') : table.Agrees table' := fun plan hplan ↦
  congrArg Prod.fst (adopt_of_find?_eq_some (h plan hplan))

theorem shares_adopt (table : PlanTable) (plan : KernelPlan) :
    (table.adopt plan).2.Shares (table.adopt plan).1 := by
  obtain ⟨hkernel, helements, hinner, hfind⟩ := table.adopt_spec plan
  rw [Shares, hkernel, helements, hinner]
  exact hfind

theorem grows_adopt (table : PlanTable) (plan : KernelPlan) :
    table.Grows (table.adopt plan).2 := by
  intro known hknown
  unfold adopt
  split
  · exact hknown
  · unfold Shares find? at hknown ⊢
    rw [List.find?_append, hknown]
    rfl

/-- A plan that was adopted is answered from then on. -/
theorem adopt_of_grows (h : (table.adopt plan).2.Grows table') :
    (table'.adopt plan).1 = (table.adopt plan).1 := by
  obtain ⟨hkernel, helements, hinner, _⟩ := table.adopt_spec plan
  have hshares := h _ (table.shares_adopt plan)
  rw [Shares, hkernel, helements, hinner] at hshares
  rw [adopt_of_find?_eq_some hshares]

end PlanTable

/-! ## Implementations that can be written down -/

/-- The descriptor creates reference, parallel or vendor implementations. -/
inductive Descriptor.Persistable (descriptor : Descriptor CatalogueImplementation) : Prop
  | reference (h : ∀ node, descriptor.instantiate node = .reference (.ofNode node))
  | parallel (h : ∀ node, descriptor.instantiate node = .parallel (.ofNode node))
  | gemm (h : ∀ node, descriptor.instantiate node = .gemm (.ofNode node))

theorem Descriptor.persistable_of_mem
    (h : descriptor ∈ referenceDescriptors ++ parallelDescriptors ++ [gemmDescriptor]) :
    descriptor.Persistable := by
  rcases List.mem_append.1 h with h | h
  · rcases List.mem_append.1 h with h | h
    · exact .reference fun node ↦ (instantiate_reference h node).2
    · exact .parallel fun node ↦ (instantiate_parallel h node).2
  · obtain rfl := List.mem_singleton.1 h
    exact .gemm fun _ ↦ rfl

/-- Such implementations are created by operation. -/
theorem Descriptor.Persistable.instantiate_congr (h : descriptor.Persistable)
    (hop : node.op = other.op) : descriptor.instantiate node = descriptor.instantiate other := by
  cases h with
  | reference h => rw [h, h, ReferenceImplementation.ofNode, ReferenceImplementation.ofNode, hop]
  | parallel h =>
    rw [h, h, ParallelImplementation.ofNode, ParallelImplementation.ofNode, Node.kind, Node.kind,
      hop]
  | gemm h => rw [h, h, GemmImplementation.ofNode, GemmImplementation.ofNode, hop]

namespace CatalogueImplementation

def blank : CatalogueImplementation → CatalogueImplementation
  | .reference impl => .reference { impl with shapes := none }
  | .parallel impl => .parallel { impl with compiled := none }
  | .gemm impl => .gemm { impl with plan := none }
  | impl => impl

/-- The form is the one of the state that the implementation is in, and its plan is shared. -/
inductive Settled (table : PlanTable) : CatalogueImplementation → FinalizedForm → Prop
  | reference {impl : ReferenceImplementation} {shapes : ConcreteShapes}
      (hshapes : impl.shapes = some shapes) : Settled table (.reference impl) (impl.form shapes)
  | parallel {impl : ParallelImplementation} {plan : KernelPlan} {shapes : ConcreteShapes}
      (hcompiled : impl.compiled = some (plan, shapes)) (hkernel : impl.kernel = some plan.kernel)
      (hshares : table.Shares plan) : Settled table (.parallel impl) (impl.form plan shapes)
  | gemm {impl : GemmImplementation} {plan : GemmPlan} {shapes : ConcreteShapes}
      (hplan : impl.plan = some (plan, shapes)) (hspec : impl.spec = some plan.spec) :
      Settled table (.gemm impl) (GemmImplementation.form plan shapes)

theorem Settled.grows (h : Settled table impl form) (hgrows : table.Grows table') :
    Settled table' impl form := by
  cases h with
  | reference hshapes => exact .reference hshapes
  | parallel hcompiled hkernel hshares => exact .parallel hcompiled hkernel (hgrows _ hshares)
  | gemm hplan hspec => exact .gemm hplan hspec

/-- New implementations are not finalized. -/
theorem blank_instantiate (h : descriptor.Persistable) (node : Node) :
    (descriptor.instantiate node).blank = descriptor.instantiate node := by
  cases h with
  | reference h | parallel h | gemm h => rw [h]; rfl

theorem grows_finalize (impl : CatalogueImplementation) (shapes : ConcreteShapes) (op : OpSpec)
    (env : Environment) :
    env.plans.Grows (Implementation.finalize impl shapes op env).2.2.plans := by
  cases impl with
  | parallel impl =>
    show env.plans.Grows (impl.finalize shapes op env.plans).2.2
    unfold ParallelImplementation.finalize
    split
    · exact .refl _
    · exact env.plans.grows_adopt _
  | reference | gemm | limited | failing | scripted => exact .refl _

theorem grows_deserialize (impl : CatalogueImplementation) (payload : Bytes) (env : Environment) :
    env.plans.Grows (Implementation.deserialize impl payload env).2.2.plans := by
  cases impl with
  | parallel impl =>
    show env.plans.Grows (impl.deserialize payload env.plans).2.2
    unfold ParallelImplementation.deserialize
    split
    · exact .refl _
    · split
      · exact .refl _
      · exact env.plans.grows_adopt _
  | reference | gemm | limited | failing | scripted => exact .refl _

/-- Running leaves the shared plans alone. -/
theorem plans_execute (impl : CatalogueImplementation) (inputs outputs : List TensorView)
    (env : Environment) :
    (Implementation.execute impl inputs outputs env).2.2.plans = env.plans := by
  cases impl <;> rfl

/-- Finalizing settles an implementation that was created for the operation. -/
theorem settled_of_finalize (hpersistable : descriptor.Persistable)
    (hblank : impl.blank = descriptor.instantiate node)
    (h : Implementation.finalize impl shapes node.op env = (.ok form, impl', env')) :
    impl'.blank = descriptor.instantiate node ∧ Settled env'.plans impl' form := by
  cases hpersistable with
  | reference hcreates =>
    rw [hcreates] at hblank ⊢
    cases impl with
    | reference reference =>
      obtain ⟨_, hfinalize, rfl, rfl⟩ := finalize_reference_eq_ok_iff.1 h
      have hkernel : reference.kernel = .ofOp node.op :=
        congrArg ReferenceImplementation.kernel (CatalogueImplementation.reference.inj hblank)
      obtain ⟨_, rfl, rfl⟩ := (ReferenceImplementation.finalize_eq_ok_iff hkernel).1 hfinalize
      exact ⟨hblank, .reference rfl⟩
    | parallel | gemm | limited | failing | scripted => cases hblank
  | parallel hcreates =>
    rw [hcreates] at hblank ⊢
    cases impl with
    | parallel parallel =>
      obtain ⟨_, _, hfinalize, rfl, rfl⟩ := finalize_parallel_eq_ok_iff.1 h
      have hkernel : parallel.kernel = ParallelKernel.ofOp? node.op :=
        congrArg ParallelImplementation.kernel (CatalogueImplementation.parallel.inj hblank)
      obtain ⟨kernel, elements, hop, _, _, rfl, rfl, rfl⟩ :=
        (ParallelImplementation.finalize_eq_ok_iff hkernel).1 hfinalize
      obtain ⟨hplanned, _⟩ := env.plans.compile_fst kernel elements shapes.rowLength
      refine ⟨hblank, .parallel rfl ?_ (env.plans.shares_adopt _)⟩
      show parallel.kernel = _
      rw [hplanned, hkernel, hop]
    | reference | gemm | limited | failing | scripted => cases hblank
  | gemm hcreates =>
    rw [hcreates] at hblank ⊢
    cases impl with
    | gemm gemm =>
      obtain ⟨_, hfinalize, rfl, rfl⟩ := finalize_gemm_eq_ok_iff.1 h
      obtain ⟨plan, hplan, rfl, rfl⟩ := GemmImplementation.finalize_eq_ok_iff.1 hfinalize
      refine ⟨hblank, .gemm rfl ?_⟩
      show gemm.spec = some plan.spec
      cases hspec : gemm.spec with
      | none => simp [GemmImplementation.planFor, hspec] at hplan
      | some spec =>
        have hop : node.op = .matMul spec := by
          refine GemmImplementation.spec_ofNode_eq_some_iff.1 ?_
          rw [← hspec]
          exact (congrArg GemmImplementation.spec (CatalogueImplementation.gemm.inj hblank)).symm
        rw [hop] at hplan
        rw [((GemmImplementation.planFor_eq_ok_iff hspec).1 hplan).1]
    | reference | parallel | limited | failing | scripted => cases hblank

/-- Reading back settles an implementation. -/
theorem settled_of_deserialize {payload : Bytes} (hpersistable : descriptor.Persistable)
    (h : Implementation.deserialize (descriptor.instantiate node) payload env =
      (.ok form, impl, env')) :
    impl.blank = descriptor.instantiate node ∧ Settled env'.plans impl form := by
  cases hpersistable with
  | reference hcreates =>
    rw [hcreates] at h ⊢
    obtain ⟨_, hread, rfl, rfl⟩ := deserialize_reference_eq_ok_iff.1 h
    obtain ⟨shapes, _, rfl, rfl⟩ := ReferenceImplementation.deserialize_eq_ok_iff.1 hread
    exact ⟨rfl, .reference rfl⟩
  | parallel hcreates =>
    rw [hcreates] at h ⊢
    obtain ⟨_, _, hread, rfl, rfl⟩ := deserialize_parallel_eq_ok_iff.1 h
    obtain ⟨plan, shapes, _, hkernel, rfl, rfl, rfl⟩ :=
      ParallelImplementation.deserialize_eq_ok_iff.1 hread
    refine ⟨rfl, .parallel rfl ?_ (env.plans.shares_adopt plan)⟩
    rw [(env.plans.adopt_spec plan).1]
    exact hkernel
  | gemm hcreates =>
    rw [hcreates] at h ⊢
    obtain ⟨_, hread, rfl, rfl⟩ := deserialize_gemm_eq_ok_iff.1 h
    obtain ⟨plan, shapes, _, hspec, rfl, rfl⟩ :=
      GemmImplementation.deserialize_eq_ok_iff.1 hread
    exact ⟨rfl, .gemm rfl hspec⟩

/-- What was read back once is read back again, whatever plans are shared besides. -/
theorem deserialize_of_grows {payload : Bytes} (hpersistable : descriptor.Persistable)
    (h : Implementation.deserialize (descriptor.instantiate node) payload env =
      (.ok form, impl, env')) {later : Environment} (hgrows : env'.plans.Grows later.plans) :
    ∃ later' : Environment, Implementation.deserialize (descriptor.instantiate node) payload later =
      (.ok form, impl, later') := by
  cases hpersistable with
  | reference hcreates =>
    rw [hcreates] at h ⊢
    obtain ⟨reference, hread, rfl, rfl⟩ := deserialize_reference_eq_ok_iff.1 h
    exact ⟨later, deserialize_reference_eq_ok_iff.2 ⟨reference, hread, rfl, rfl⟩⟩
  | parallel hcreates =>
    rw [hcreates] at h ⊢
    obtain ⟨parallel, _, hread, rfl, rfl⟩ := deserialize_parallel_eq_ok_iff.1 h
    obtain ⟨plan, shapes, hdecode, hkernel, rfl, rfl, rfl⟩ :=
      ParallelImplementation.deserialize_eq_ok_iff.1 hread
    have hadopt := PlanTable.adopt_of_grows hgrows
    refine ⟨{ later with plans := (later.plans.adopt plan).2 },
      deserialize_parallel_eq_ok_iff.2 ⟨_, _, ?_, rfl, rfl⟩⟩
    refine ParallelImplementation.deserialize_eq_ok_iff.2
      ⟨plan, shapes, hdecode, hkernel, ?_, ?_, rfl⟩
    · rw [hadopt]
    · rw [hadopt]
  | gemm hcreates =>
    rw [hcreates] at h ⊢
    obtain ⟨gemm, hread, rfl, rfl⟩ := deserialize_gemm_eq_ok_iff.1 h
    exact ⟨later, deserialize_gemm_eq_ok_iff.2 ⟨gemm, hread, rfl, rfl⟩⟩

end CatalogueImplementation

/-- Attempts that fail share plans, too. -/
theorem Tries.grows {attempts : BoundImplementation CatalogueImplementation → Prop}
    (h : Tries attempts op shapes env env') : env.plans.Grows env'.plans := by
  induction h with
  | refl => exact .refl _
  | @step bound error impl env env' _ _ hfails _ ih =>
    have hgrows := grows_finalize bound.implementation shapes op env
    rw [hfails] at hgrows
    exact hgrows.trans ih

/-! ## Records -/

/-- What is bound under a descriptor comes from it. -/
structure BoundImplementation.StemsFrom (registry : Registry CatalogueImplementation)
    (device : DeviceCaps) (node : Node) (descriptor : Descriptor CatalogueImplementation)
    (bound : BoundImplementation CatalogueImplementation) : Prop where
  descriptor_eq : registry.descriptor? bound.descriptor = some descriptor
  op_eq : descriptor.op = node.kind
  enabled : device.enables descriptor.backend = true
  blank_eq : descriptor.Persistable →
    bound.implementation.blank = descriptor.instantiate node

/-- What is bound under a descriptor comes from it, and the form is the one of its state. -/
structure FinalizedImplementation.RecordedAs (registry : Registry CatalogueImplementation)
    (device : DeviceCaps) (table : PlanTable) (node : Node)
    (descriptor : Descriptor CatalogueImplementation)
    (entry : FinalizedImplementation CatalogueImplementation) : Prop where
  stems : entry.bound.StemsFrom registry device node descriptor
  settled : descriptor.Persistable → Settled table entry.bound.implementation entry.form

/-- The form of a finalized implementation is on record. -/
def FinalizedImplementation.Recorded (registry : Registry CatalogueImplementation)
    (device : DeviceCaps) (table : PlanTable) (node : Node)
    (entry : FinalizedImplementation CatalogueImplementation) : Prop :=
  ∃ descriptor, entry.RecordedAs registry device table node descriptor

theorem BoundImplementation.StemsFrom.congr (h : bound.StemsFrom registry device node descriptor)
    (hop : node.op = other.op) : bound.StemsFrom registry device other descriptor := by
  refine ⟨h.descriptor_eq, ?_, h.enabled, fun hpersistable ↦ ?_⟩
  · rw [h.op_eq, Node.kind, hop]
    rfl
  · rw [h.blank_eq hpersistable, hpersistable.instantiate_congr hop]

namespace FinalizedImplementation.Recorded

theorem grows (h : entry.Recorded registry device table node) (hgrows : table.Grows table') :
    entry.Recorded registry device table' node := by
  obtain ⟨descriptor, hstems, hsettled⟩ := h
  exact ⟨descriptor, hstems, fun hpersistable ↦ (hsettled hpersistable).grows hgrows⟩

theorem congr (h : entry.Recorded registry device table node) (hop : node.op = other.op) :
    entry.Recorded registry device table other := by
  obtain ⟨descriptor, hstems, hsettled⟩ := h
  exact ⟨descriptor, hstems.congr hop, hsettled⟩

end FinalizedImplementation.Recorded

/-- A candidate comes from its descriptor. -/
theorem Registry.Offers.exists_stemsFrom (h : registry.Offers node declared device bound) :
    ∃ descriptor, bound.StemsFrom registry device node descriptor := by
  cases h with
  | @mk selection descriptor hselects =>
    exact ⟨descriptor, hselects.descriptor_eq, hselects.op_eq, hselects.enabled,
      fun hpersistable ↦ blank_instantiate hpersistable node⟩

/-- The form that finalizing makes is on record. -/
theorem BoundImplementation.StemsFrom.recorded
    (h : bound.StemsFrom registry device node descriptor)
    (hfinalize : Implementation.finalize bound.implementation shapes node.op env =
      (.ok form, impl, env')) :
    FinalizedImplementation.Recorded registry device env'.plans node
      ⟨{ bound with implementation := impl }, form⟩ := by
  have hsettled := fun hpersistable ↦
    settled_of_finalize hpersistable (h.blank_eq hpersistable) hfinalize
  exact ⟨descriptor, ⟨h.descriptor_eq, h.op_eq, h.enabled, fun hpersistable ↦
    (hsettled hpersistable).1⟩, fun hpersistable ↦ (hsettled hpersistable).2⟩

/-- What is bound, or the form of an instance that is ready, is on record. -/
structure PrimitiveInstance.Recorded (registry : Registry CatalogueImplementation)
    (device : DeviceCaps) (table : PlanTable)
    (inst : PrimitiveInstance CatalogueImplementation) : Prop where
  bound : inst.state = .bound → ∃ bound descriptor, inst.bound = some bound ∧
    bound.StemsFrom registry device inst.node descriptor
  ready : inst.state = .ready → ∃ entry : FinalizedImplementation CatalogueImplementation,
    inst.bound = some entry.bound ∧ inst.form = some entry.form ∧
      entry.Recorded registry device table inst.node

/-- The forms in the cache are on record for all nodes with the signature they are kept under. -/
def Workspace.Recorded (graph : Graph) (registry : Registry CatalogueImplementation)
    (device : DeviceCaps) (workspace : Workspace CatalogueImplementation Environment) : Prop :=
  workspace.KeepsFor graph fun node _ entry ↦
    entry.Recorded registry device workspace.environment.plans node

variable {workspace workspace' : Workspace CatalogueImplementation Environment}

/-- Forms on record may be added to the cache while more plans are shared. -/
theorem Workspace.Recorded.adds (h : workspace.Recorded graph registry device)
    {new : CacheKey → FinalizedImplementation CatalogueImplementation → Prop}
    (hadds : workspace.Adds workspace' new)
    (hgrows : workspace.environment.plans.Grows workspace'.environment.plans)
    (hnew : ∀ key entry, new key entry → ∃ node ∈ graph.nodes,
      key.1 = node.signature (graph.inputLayouts node) ∧
        entry.Recorded registry device workspace'.environment.plans node) :
    workspace'.Recorded graph registry device :=
  hadds.keepsFor h (fun _ _ _ hentry ↦ hentry.grows hgrows) hnew
    fun hentry hop _ _ ↦ hentry.congr hop

namespace PrimitiveInstance

variable {inst inst' : PrimitiveInstance CatalogueImplementation}

theorem Recorded.grows (h : inst.Recorded registry device table) (hgrows : table.Grows table') :
    inst.Recorded registry device table' := by
  refine ⟨h.bound, fun hstate ↦ ?_⟩
  obtain ⟨entry, hbound, hform, hentry⟩ := h.ready hstate
  exact ⟨entry, hbound, hform, hentry.grows hgrows⟩

/-- Slots and counts play no part in what is on record. -/
theorem Recorded.relabel (h : inst.Recorded registry device table)
    (hnode : inst'.node = inst.node) (hstate : inst'.state = inst.state)
    (hbound : inst'.bound = inst.bound) (hform : inst'.form = inst.form) :
    inst'.Recorded registry device table := by
  constructor
  · rw [hstate, hbound, hnode]
    exact h.bound
  · rw [hstate, hbound, hform, hnode]
    exact h.ready

/-- Nothing is known of an instance that failed. -/
theorem recorded_of_failed (h : inst.state = .failed) : inst.Recorded registry device table := by
  constructor <;> rw [h] <;> exact nofun

/-- What an instance that is bound or ready holds comes from its descriptor. -/
theorem Recorded.exists_stemsFrom (h : inst.Recorded registry device table)
    (hstate : inst.state = .bound ∨ inst.state = .ready) : ∃ bound descriptor,
      inst.bound = some bound ∧ bound.StemsFrom registry device inst.node descriptor := by
  rcases hstate with hstate | hstate
  · exact h.bound hstate
  · obtain ⟨entry, hbound, _, descriptor, hstems, _⟩ := h.ready hstate
    exact ⟨entry.bound, descriptor, hbound, hstems⟩

/-- What a preparation leaves: more shared plans, and forms that are on record. -/
structure Records {α : Type} (graph : Graph) (registry : Registry CatalogueImplementation)
    (device : DeviceCaps) (inst : PrimitiveInstance CatalogueImplementation)
    (workspace : Workspace CatalogueImplementation Environment)
    (answer : Except RuntimeError α × PrimitiveInstance CatalogueImplementation ×
      Workspace CatalogueImplementation Environment) : Prop where
  same : inst.SamePlace answer.2.1
  grows : workspace.environment.plans.Grows answer.2.2.environment.plans
  cached : answer.2.2.Recorded graph registry device
  recorded : answer.2.1.Recorded registry device answer.2.2.environment.plans

/-- However an instance changes to other extents, its form is on record. -/
theorem records_of_specializes {α : Type} (hof : inst.Of graph)
    (hstate : inst.state = .bound ∨ inst.state = .ready)
    (hrecorded : inst.Recorded registry device table)
    (hworkspace : workspace.Recorded graph registry device)
    {answer : Except RuntimeError α × PrimitiveInstance CatalogueImplementation ×
      Workspace CatalogueImplementation Environment}
    (h : inst.Specializes registry device shapes workspace answer) :
    Records graph registry device inst workspace answer := by
  obtain ⟨bound, descriptor, hbound, hstems⟩ := hrecorded.exists_stemsFrom hstate
  have hattempts : ∀ other, inst.Attempts registry device shapes other →
      ∃ descriptor, other.StemsFrom registry device inst.node descriptor := by
    rintro other ⟨hother | hother, _⟩
    · obtain rfl := Option.some.inj (hbound.symm.trans hother)
      exact ⟨descriptor, hstems⟩
    · exact hother.exists_stemsFrom
  cases h with
  | @cached a inst' workspace' cache entry hcache hmem henv hadds hsame hstate' hbound' hform =>
    have hgrows : workspace.environment.plans.Grows workspace'.environment.plans :=
      henv ▸ .refl _
    have hentry := (hworkspace cache hcache).2 _ entry hmem inst.node hof.node_mem
      (by rw [hof.signature_eq])
    refine ⟨hsame, hgrows, hworkspace.adds hadds hgrows fun _ _ ↦ False.elim, ?_⟩
    refine ⟨fun hbound ↦ absurd (hstate'.symm.trans hbound) nofun, fun _ ↦ ?_⟩
    exact ⟨entry, hbound', hform, hsame.node_eq.symm ▸ hentry.grows hgrows⟩
  | changed hchanges =>
    cases hchanges with
    | @made a inst' workspace' entry hmakes hadds hsame hstate' hbound' hform =>
      obtain ⟨other, before, hattempt, htried, hfinalize, hkept⟩ := hmakes.made
      obtain ⟨descriptor, hstems⟩ := hattempts other hattempt
      have hentry := hstems.recorded hfinalize
      rw [← hkept] at hentry
      have hgrows := grows_finalize other.implementation shapes inst.node.op before
      rw [hfinalize] at hgrows
      replace hgrows := htried.grows.trans hgrows
      refine ⟨hsame, hgrows, hworkspace.adds hadds hgrows ?_, ?_⟩
      · rintro key new ⟨rfl, rfl⟩
        exact ⟨inst.node, hof.node_mem, by rw [hof.signature_eq], hentry⟩
      · refine ⟨fun hbound ↦ absurd (hstate'.symm.trans hbound) nofun, fun _ ↦ ?_⟩
        exact ⟨entry, hbound', hform, hsame.node_eq.symm ▸ hentry⟩
    | failed htried hadds hsame hfailed =>
      exact ⟨hsame, htried.grows,
        hworkspace.adds hadds htried.grows fun _ _ ↦ False.elim, recorded_of_failed hfailed⟩

/-- Preparing an instance keeps on record what it and the cache hold. -/
theorem records_prepare (shapes : ConcreteShapes) (hof : inst.Of graph)
    (hstate : inst.state = .bound ∨ inst.state = .ready)
    (hrecorded : inst.Recorded registry device workspace.environment.plans)
    (hworkspace : workspace.Recorded graph registry device) :
    Records graph registry device inst workspace
      (inst.prepare shapes ⟨registry, device⟩ workspace) := by
  rcases inst.prepare_cases registry device shapes workspace hstate with
    ⟨_, _, hanswer⟩ | hspecializes
  · rw [hanswer]
    exact ⟨.refl inst, .refl _, hworkspace, hrecorded⟩
  · exact records_of_specializes hof hstate hrecorded hworkspace hspecializes

/-- What a restored instance holds is on record. -/
theorem recorded_restored {id : DescriptorId}
    (hdescriptor : registry.descriptor? id = some descriptor) (hop : descriptor.op = node.kind)
    (henabled : device.enables descriptor.backend = true) {payload : Bytes}
    (hread : Implementation.deserialize (descriptor.instantiate node) payload env =
      (.ok form, impl, env')) :
    (restored node declared id impl form).Recorded registry device env'.plans := by
  refine ⟨nofun, fun _ ↦ ⟨⟨⟨id, impl, false⟩, form⟩, rfl, rfl, descriptor, ?_, ?_⟩⟩
  · exact ⟨hdescriptor, hop, henabled, fun hpersistable ↦
      (settled_of_deserialize hpersistable hread).1⟩
  · exact fun hpersistable ↦ (settled_of_deserialize hpersistable hread).2

end PrimitiveInstance

end TensorEngine
