import TensorEngine.Proofs.Execution.Runs
import TensorEngine.Proofs.Instance.Counting

/-!
# The visits of a run

A run is a list of visits, each in the state that the one before has left.  What a visit does to the
instance of its place is read off the preparation of the instance and the run of its implementation;
what it does to the cache, off the keys before and after it.
-/

namespace TensorEngine

variable {ι ω : Type}

/-! ## Filling -/

namespace PrimitiveInstance

variable {inst inst' : PrimitiveInstance ι} {shapes : ConcreteShapes} {bindings : Bindings}
  {pool : MemoryPool} {prepared : List Preparation} {switched dispatched : Bool} {slot : Nat}

/-- What filling a slot does to what an instance counts, when its implementation was run with
success or not at all. -/
structure Filled (inst : PrimitiveInstance ι) (dispatched : Bool) (inst' : PrimitiveInstance ι) :
    Prop where
  stats_eq : inst'.stats =
    { inst.stats with executions := inst.stats.executions + dispatched.toNat }
  kept : inst'.state = .ready ∧ inst'.form = inst.form ∨ inst'.state = .failed

/-- A run that succeeds is counted. -/
theorem Tallies.filled (h : inst.Tallies (prepared ++ [⟨shapes, switched, false⟩]))
    (hready : inst.state = .ready) (hfilled : inst.Filled dispatched inst') :
    inst'.Tallies (prepared ++ [⟨shapes, switched, dispatched⟩]) := by
  obtain ⟨hrespecializations, hacquisitions, hreselections, hexecutions⟩ := h.counts
  have hcounts : inst'.Counts (prepared ++ [⟨shapes, switched, dispatched⟩]) := by
    refine ⟨?_, ?_, ?_, ?_⟩
    · simpa [hfilled.stats_eq] using hrespecializations
    · simpa [hfilled.stats_eq] using hacquisitions
    · simpa [hfilled.stats_eq, List.countP_append, List.countP_singleton] using hreselections
    · cases dispatched <;>
        simpa [hfilled.stats_eq, List.countP_append, List.countP_singleton] using hexecutions
  rcases hfilled.kept with ⟨hstate, hform⟩ | hfailed
  · obtain ⟨form, last, hform', hlast, hshapes⟩ := h.last hready
    rw [List.getLast?_concat, Option.some.injEq] at hlast
    subst hlast
    refine ⟨hcounts, fun hbound ↦ ?_, fun _ ↦
      ⟨form, _, hform.trans hform', List.getLast?_concat, hshapes⟩⟩
    rw [hstate] at hbound
    cases hbound
  · exact hcounts.tallies_of_failed hfailed

variable [Implementation ι ω] {env : ω}

omit [Implementation ι ω] in
theorem stats_writeBinding (inst : PrimitiveInstance ι) (bindings : Bindings) (pool : MemoryPool) :
    (inst.writeBinding bindings pool).2.1.stats = inst.stats := by
  unfold writeBinding
  cases bindings inst.node.id with
  | none => rfl
  | some binding =>
    cases inst.resultSlot with
    | error error => rfl
    | ok slot =>
      simp only [reserve]
      cases pool.ensureCapacity slot binding.size with
      | error error => rfl
      | ok answer =>
        simp only
        cases inst.copyBinding binding slot answer.2 <;> rfl

theorem stats_execute (inst : PrimitiveInstance ι) (shapes : ConcreteShapes) (pool : MemoryPool)
    (env : ω) : let answer := inst.execute shapes pool env
    answer.2.1.stats = { inst.stats with
      executions := inst.stats.executions + answer.1.isOk.toNat } := by
  unfold execute
  cases inst.target shapes with
  | error error => rfl
  | ok target =>
    simp only [reserve]
    cases pool.ensureCapacity target.1 target.2 with
    | error error => rfl
    | ok answer =>
      simp only [beginExecute]
      by_cases hstate : inst.state = .ready
      · simp only [hstate, if_true]
        generalize (inst.withState .executing).runKernel shapes answer.2 env = answer
        obtain ⟨source | _, pool', env'⟩ := answer
        · simp only [abortExecute]
          split
          · rfl
          · split <;> rfl
        · rfl
      · simp only [hstate, if_false]
        rfl

/-- Filling a slot counts the runs of implementations that succeed. -/
theorem filled_fill (shapes : ConcreteShapes) (bindings : Bindings) (pool : MemoryPool) (env : ω)
    (hstate : inst.state = .ready) (hslot : inst.outputSlot = some slot) :
    let answer := inst.fill shapes bindings pool env
    inst.Filled (inst.node.kind.isExecutable && answer.1.isOk) answer.2.1 := by
  have hframe := fillFrame_fill shapes bindings pool env hstate hslot
  refine ⟨?_, ?_⟩
  · unfold fill
    cases inst.node.kind with
    | parameter => exact stats_writeBinding inst bindings pool
    | constant | reshape => rfl
    | elementwiseBinary | elementwiseUnary | matMul | reduce | reorder =>
      exact stats_execute inst shapes pool env
  · by_cases hharmless : Harmless (inst.fill shapes bindings pool env).1
    · obtain ⟨hready, _, hform⟩ := hframe.kept hharmless
      exact .inl ⟨hready, hform⟩
    · exact .inr (hframe.failed hharmless)

end PrimitiveInstance

/-! ## Visits -/

/-- A visit of a place in the course of a run. -/
structure Visit (ι ω : Type) where
  context : ExecutionContext ι
  state : ExecutionState ι ω
  place : Nat

namespace Visit

variable [Implementation ι ω] {visit : Visit ι ω} {standard : Standard ι ω} {plan : MemoryPlan}

def after (visit : Visit ι ω) : ExecutionState ι ω :=
  (visit.state.visit visit.context visit.place).2

/-- The preparation of the instance of the place, when it succeeds. -/
def preparation? (visit : Visit ι ω) : Option Preparation := do
  let inst ← visit.state.instances[visit.place]?
  let shapes ← (visit.context.concreteShapes inst.node visit.state.extents).toOption
  match inst.prepare shapes visit.context.specialize visit.state.workspace with
  | (.error _, _) => none
  | (.ok _, prepared, workspace) =>
    let (result, _) := prepared.fill shapes visit.context.bindings visit.state.pool
      workspace.environment
    return ⟨shapes, prepared.descriptor? ≠ inst.descriptor?,
      inst.node.kind.isExecutable && result.isOk⟩

/-- The preparation, when it is one of the instance of a given place. -/
def preparedAt (visit : Visit ι ω) (p : Nat) : List Preparation :=
  if visit.place = p then visit.preparation?.toList else []

/-- No key gives way to another one. -/
def Retains (visit : Visit ι ω) : Prop :=
  visit.state.workspace.keys ⊆ visit.after.workspace.keys

instance (visit : Visit ι ω) : Decidable visit.Retains := by
  unfold Retains
  infer_instance

/-- What a visit does: nothing to the instances and the cache, or it fails to prepare the instance
of its place, or it prepares the instance and fills the slot. -/
inductive Does (standard : Standard ι ω) (visit : Visit ι ω) :
    Option Preparation → ExecutionState ι ω → Prop
  | nothing {state : ExecutionState ι ω} (hinstances : state.instances = visit.state.instances)
      (hcache : state.workspace.cache = visit.state.workspace.cache) :
      Does standard visit none state
  | unprepared {before inst : PrimitiveInstance ι} {shapes : ConcreteShapes} {error : RuntimeError}
      {workspace : Workspace ι ω} {state : ExecutionState ι ω}
      (hinst : visit.state.instances[visit.place]? = some before)
      (hreadies : before.Readies shapes visit.state.workspace (.error error, inst, workspace))
      (hinstances : state.instances = visit.state.instances.set visit.place inst.markFailed)
      (hcache : state.workspace.cache = workspace.cache) : Does standard visit none state
  | prepared {before inst inst' : PrimitiveInstance ι} {shapes : ConcreteShapes}
      {transition : Transition} {workspace : Workspace ι ω} {dispatched : Bool}
      {state : ExecutionState ι ω} (hinst : visit.state.instances[visit.place]? = some before)
      (hbound : before.bound.isSome = true)
      (hreadies : before.Readies shapes visit.state.workspace (.ok transition, inst, workspace))
      (hready : standard.Ready shapes inst) (hfilled : inst.Filled dispatched inst')
      (hinstances : state.instances = visit.state.instances.set visit.place inst')
      (hcache : state.workspace.cache = workspace.cache) :
      Does standard visit (some ⟨shapes, inst.descriptor? ≠ before.descriptor?, dispatched⟩) state

theorem does_visit (hholds : standard.Holds visit.context.graph visit.context.specialize.registry
      visit.context.specialize.device)
    (hstate : visit.state.Upholds standard visit.context.graph plan) :
    visit.Does standard visit.preparation? visit.after := by
  have hvisited := hstate.visited visit.context hholds visit.place
  unfold after
  have hseat : ∀ {node : Node} {before : PrimitiveInstance ι},
      visit.context.graph.nodes[visit.place]? = some node →
      visit.state.instances[visit.place]? = some before →
        before.node = node ∧ before.bound.isSome = true ∧
          (before.state = .bound ∨ before.state = .ready) := by
    intro node before hnode hbefore
    obtain ⟨inst, hinst, hseated, husable⟩ := hstate.exists_instance hnode
    obtain rfl := Option.some.inj (hbefore.symm.trans hinst)
    obtain ⟨bound, hbound, _⟩ := husable.exists_bound
    exact ⟨hseated.node_eq, by rw [hbound]; rfl, husable.state_eq⟩
  generalize visit.state.visit visit.context visit.place = answer at hvisited
  cases hvisited with
  | absent hnode =>
    have hinst : visit.state.instances[visit.place]? = none := by
      rw [List.getElem?_eq_none_iff] at hnode ⊢
      rwa [hstate.length_instances]
    have hnone : visit.preparation? = none := by
      simp only [preparation?, hinst, Option.bind_eq_bind, Option.bind_none]
    rw [hnone]
    exact .nothing rfl rfl
  | @unfit node error hnode hshapes =>
    obtain ⟨inst, hinst, hseated, _⟩ := hstate.exists_instance hnode
    obtain rfl := hseated.node_eq
    have hnone : visit.preparation? = none := by
      simp only [preparation?, hinst, hshapes, Except.toOption, Option.bind_eq_bind,
        Option.bind_some, Option.bind_none]
    rw [hnone]
    exact .nothing rfl rfl
  | @unprepared node shapes error before inst workspace hnode _ _ hshapes hinst hprepare =>
    obtain ⟨rfl, _, hbefore⟩ := hseat hnode hinst
    have hreadies := PrimitiveInstance.readies_prepare hbefore shapes visit.context.specialize
      visit.state.workspace
    rw [hprepare] at hreadies
    have hnone : visit.preparation? = none := by
      simp only [preparation?, hinst, hshapes, Except.toOption, Option.bind_eq_bind,
        Option.bind_some, hprepare]
    rw [hnone]
    exact .unprepared hinst hreadies rfl rfl
  | @filled node shapes inst inst' workspace result pool env hnode hshapes hseated hready _ hfill
      before transition hinst hprepare =>
    obtain ⟨hnodeEq, hbound, hbefore⟩ := hseat hnode hinst
    have hreadies := PrimitiveInstance.readies_prepare hbefore shapes visit.context.specialize
      visit.state.workspace
    rw [hprepare] at hreadies
    have hfilled := PrimitiveInstance.filled_fill shapes visit.context.bindings visit.state.pool
      workspace.environment hready.state_eq hseated.placed.outputSlot_eq
    rw [hfill, hseated.node_eq, ← hnodeEq] at hfilled
    have hsome : visit.preparation? = some ⟨shapes, inst.descriptor? ≠ before.descriptor?,
        before.node.kind.isExecutable && result.isOk⟩ := by
      rw [← hnodeEq] at hshapes
      simp only [preparation?, hinst, hshapes, Except.toOption, Option.bind_eq_bind,
        Option.bind_some, hprepare, hfill, Option.pure_def]
    rw [hsome]
    exact .prepared hinst hbound hreadies hready hfilled rfl rfl

end Visit

/-! ## Tallies along visits -/

/-- Every instance counts the preparations of its place. -/
def Tallied (prepared : Nat → List Preparation) (instances : List (PrimitiveInstance ι)) : Prop :=
  ∀ (p : Nat) (inst : PrimitiveInstance ι), instances[p]? = some inst → inst.Tallies (prepared p)

/-- No form is made twice for the same extents: what a place was prepared for is still cached for
it, and it made no more forms than there are different extents among these. -/
structure Unrepeated (graph : Graph) (prepared : Nat → List Preparation)
    (instances : List (PrimitiveInstance ι)) (cache : ImplementationCache ι) : Prop where
  capacity_pos : 0 < cache.capacity
  mem_keys : ∀ {p : Nat} {node : Node}, graph.nodes[p]? = some node →
    ∀ preparation ∈ prepared p,
      (node.signature (graph.inputLayouts node), preparation.shapes) ∈ cache.keys
  finalizations_le : ∀ {p : Nat} {inst : PrimitiveInstance ι}, instances[p]? = some inst →
    inst.stats.finalizations ≤ ((prepared p).map Preparation.shapes).toFinset.card

namespace Visit

variable [Implementation ι ω] {visit : Visit ι ω} {standard : Standard ι ω} {graph : Graph}
  {preparation? : Option Preparation} {state : ExecutionState ι ω}
  {prepared : Nat → List Preparation} {cache : ImplementationCache ι}

omit [Implementation ι ω] in
/-- The instance of a place after another one took it. -/
theorem getElem?_set_cases {instances : List (PrimitiveInstance ι)} {p q : Nat}
    {inst other : PrimitiveInstance ι} (h : (instances.set p inst)[q]? = some other) :
    p = q ∧ inst = other ∨ p ≠ q ∧ instances[q]? = some other := by
  rcases eq_or_ne p q with rfl | hne
  · have hlt := (List.getElem?_eq_some_iff.1 h).1
    rw [List.length_set] at hlt
    rw [List.getElem?_set_self hlt] at h
    exact .inl ⟨rfl, Option.some.inj h⟩
  · rw [List.getElem?_set_ne hne] at h
    exact .inr ⟨hne, h⟩

/-- The preparations after a visit that made one, or made none. -/
def record (visit : Visit ι ω) (prepared : Nat → List Preparation)
    (preparation? : Option Preparation) (p : Nat) : List Preparation :=
  prepared p ++ if visit.place = p then preparation?.toList else []

omit [Implementation ι ω] in
theorem record_none : visit.record prepared none = prepared := by
  funext p
  simp [record]

omit [Implementation ι ω] in
theorem record_place {preparation : Preparation} :
    visit.record prepared (some preparation) visit.place =
      prepared visit.place ++ [preparation] := by
  simp [record]

omit [Implementation ι ω] in
theorem record_of_ne {p : Nat} (h : visit.place ≠ p) :
    visit.record prepared preparation? p = prepared p := by
  simp [record, h]

/-- Every visit is counted. -/
theorem Does.tallied (hdoes : visit.Does standard preparation? state)
    (hshaped : ∀ node shapes entry, standard.form node shapes entry → entry.form.shapes = shapes)
    (h : Tallied prepared visit.state.instances) :
    Tallied (visit.record prepared preparation?) state.instances := by
  cases hdoes with
  | nothing hinstances => rwa [record_none, hinstances]
  | @unprepared _ inst _ _ _ _ hinst hreadies hinstances =>
    rw [record_none, hinstances]
    intro p other hother
    rcases getElem?_set_cases hother with ⟨rfl, rfl⟩ | ⟨_, hsame⟩
    · exact (h _ _ hinst).unprepared hreadies
    · exact h p other hsame
  | @prepared _ inst inst' _ _ _ _ _ hinst hbound hreadies hready hfilled hinstances =>
    rw [hinstances]
    intro p other hother
    rcases getElem?_set_cases hother with ⟨rfl, rfl⟩ | ⟨hne, hsame⟩
    · obtain ⟨entry, _, hform, hruns⟩ := hready.entry
      rw [record_place]
      exact ((h _ _ hinst).readies hreadies hbound ⟨_, hform, hshaped _ _ _ hruns⟩).filled
        hready.state_eq hfilled
    · rw [record_of_ne hne]
      exact h p other hsame

/-- As long as no key gives way, and what is cached for a place may be taken there, a form is made
for new extents only. -/
theorem Does.unrepeated (hdoes : visit.Does standard preparation? state)
    (hshaped : ∀ node shapes entry, standard.form node shapes entry → entry.form.shapes = shapes)
    (hcache : visit.state.workspace.cache = some cache)
    (hretains : visit.state.workspace.keys ⊆ state.workspace.keys)
    (hseated : ∀ inst, visit.state.instances[visit.place]? = some inst →
      ∃ node, graph.nodes[visit.place]? = some node ∧
        inst.signature = node.signature (graph.inputLayouts node) ∧
        ∀ shapes entry, ((inst.signature, shapes), entry) ∈ cache.entries →
          inst.accepts shapes entry = true)
    (htallied : Tallied prepared visit.state.instances)
    (h : Unrepeated graph prepared visit.state.instances cache) :
    ∃ cache', state.workspace.cache = some cache' ∧
      Unrepeated graph (visit.record prepared preparation?) state.instances cache' := by
  rw [Workspace.keys_eq hcache] at hretains
  cases hdoes with
  | nothing hinstances hsame =>
    refine ⟨cache, hsame.trans hcache, ?_⟩
    rwa [record_none, hinstances]
  | @unprepared _ inst _ _ _ _ hinst hreadies hinstances hsame =>
    obtain ⟨hstats, cache', hcache', hcapacity⟩ := hreadies.of_error hcache
    rw [← hsame] at hcache'
    rw [Workspace.keys_eq hcache'] at hretains
    rw [record_none, hinstances]
    refine ⟨cache', hcache', hcapacity ▸ h.capacity_pos, fun hnode preparation hmem ↦
      hretains (h.mem_keys hnode preparation hmem), fun {p other} hother ↦ ?_⟩
    rcases getElem?_set_cases hother with ⟨rfl, rfl⟩ | ⟨_, hother⟩
    · exact Nat.le_trans (Nat.le_of_eq (congrArg InstanceStats.finalizations hstats))
        (h.finalizations_le hinst)
    · exact h.finalizations_le hother
  | @prepared before inst inst' shapes _ _ dispatched _ hinst _ hreadies hready hfilled
      hinstances hsame =>
    obtain ⟨entry, _, hform, hruns⟩ := hready.entry
    obtain ⟨node, hnode, hsignature, haccepts⟩ := hseated before hinst
    obtain ⟨cache', hcache', hcapacity, hkey⟩ := hreadies.mem_keys hcache h.capacity_pos
      ⟨_, hform, hshaped _ _ _ hruns⟩ (htallied _ _ hinst)
    rw [← hsame] at hcache'
    rw [Workspace.keys_eq hcache'] at hretains
    refine ⟨cache', hcache', hcapacity ▸ h.capacity_pos, ?_, ?_⟩
    · intro q other hother preparation hpreparation
      rcases eq_or_ne visit.place q with rfl | hne
      · obtain rfl := Option.some.inj (hnode.symm.trans hother)
        rw [record_place] at hpreparation
        rcases List.mem_append.1 hpreparation with hold | hnew
        · exact hretains (h.mem_keys hnode preparation hold)
        · obtain rfl := List.mem_singleton.1 hnew
          rcases hkey with ⟨old, hold, rfl⟩ | hkey
          · exact hretains (h.mem_keys hnode old hold)
          · exact hsignature ▸ hkey
      · rw [record_of_ne hne] at hpreparation
        exact hretains (h.mem_keys hother preparation hpreparation)
    · rw [hinstances]
      intro q other hother
      rcases getElem?_set_cases hother with ⟨rfl, rfl⟩ | ⟨hne, hother⟩
      · rw [record_place, hfilled.stats_eq, List.map_append]
        exact hreadies.finalizations_le hcache (haccepts shapes)
          (fun preparation hmem ↦ hsignature ▸ h.mem_keys hnode preparation hmem)
          (h.finalizations_le hinst)
      · rw [record_of_ne hne]
        exact h.finalizations_le hother

/-- Without a cache no visit takes anything from it. -/
theorem Does.uncached (hdoes : visit.Does standard preparation? state)
    (hcache : visit.state.workspace.cache = none)
    (h : ∀ inst ∈ visit.state.instances, inst.stats.cacheHits = 0) :
    state.workspace.cache = none ∧ ∀ inst ∈ state.instances, inst.stats.cacheHits = 0 := by
  cases hdoes with
  | nothing hinstances hsame => exact ⟨hsame.trans hcache, hinstances ▸ h⟩
  | unprepared hinst hreadies hinstances hsame =>
    obtain ⟨hnone, hhits⟩ := hreadies.uncached hcache
    refine ⟨hsame.trans hnone, fun other hother ↦ ?_⟩
    rw [hinstances] at hother
    rcases List.mem_or_eq_of_mem_set hother with hother | rfl
    · exact h other hother
    · exact hhits.trans (h _ (List.mem_of_getElem? hinst))
  | prepared hinst _ hreadies _ hfilled hinstances hsame =>
    obtain ⟨hnone, hhits⟩ := hreadies.uncached hcache
    refine ⟨hsame.trans hnone, fun other hother ↦ ?_⟩
    rw [hinstances] at hother
    rcases List.mem_or_eq_of_mem_set hother with hother | rfl
    · exact h other hother
    · rw [hfilled.stats_eq]
      exact hhits.trans (h _ (List.mem_of_getElem? hinst))

/-- No visit adds or removes instances. -/
theorem Does.length_instances (hdoes : visit.Does standard preparation? state) :
    state.instances.length = visit.state.instances.length := by
  cases hdoes with
  | nothing hinstances => rw [hinstances]
  | unprepared _ _ hinstances | prepared _ _ _ _ _ hinstances =>
    rw [hinstances, List.length_set]

end Visit

/-- The preparations of the instance of a place in the course of visits. -/
def preparedAt [Implementation ι ω] (visits : List (Visit ι ω)) (p : Nat) : List Preparation :=
  visits.flatMap (·.preparedAt p)

namespace ExecutionState

variable [Implementation ι ω]

/-- The visits of a run over places. -/
def visits (context : ExecutionContext ι) (cancelled : Nat → ω → Bool) (completed : Nat)
    (state : ExecutionState ι ω) : List Nat → List (Visit ι ω)
  | [] => []
  | position :: rest =>
    if cancelled completed state.workspace.environment then []
    else
      ⟨context, state, position⟩ ::
        match state.visit context position with
        | (.ok (), state) => visits context cancelled (completed + 1) state rest
        | (.error _, _) => []

variable {standard : Standard ι ω} {plan : MemoryPlan} {context : ExecutionContext ι}

/-- What every visit keeps up to date with the preparations is so at the end of a run. -/
theorem trace_visitAll
    (hholds : standard.Holds context.graph context.specialize.registry context.specialize.device)
    (cancelled : Nat → ω → Bool)
    {Inv : (Nat → List Preparation) → List (PrimitiveInstance ι) →
      Option (ImplementationCache ι) → Prop} (order : List Nat) :
    ∀ (completed : Nat) (state : ExecutionState ι ω) (prepared : Nat → List Preparation),
      (∀ visit ∈ state.visits context cancelled completed order,
        visit.context = context → visit.state.Upholds standard context.graph plan →
        ∀ prepared, Inv prepared visit.state.instances visit.state.workspace.cache →
          Inv (fun p ↦ prepared p ++ visit.preparedAt p) visit.after.instances
            visit.after.workspace.cache) →
      state.Upholds standard context.graph plan →
      Inv prepared state.instances state.workspace.cache →
        let answer := state.visitAll context cancelled completed order
        Inv (fun p ↦ prepared p ++ preparedAt (state.visits context cancelled completed order) p)
          answer.2.instances answer.2.workspace.cache := by
  induction order with
  | nil =>
    intro completed state prepared _ _ hinv
    simpa [visitAll, visits, preparedAt] using hinv
  | cons p order ih =>
    intro completed state prepared hstep hstate hinv
    unfold visits at hstep ⊢
    unfold visitAll
    split
    · simpa [preparedAt] using hinv
    · rename_i hcancelled
      simp only [hcancelled, Bool.false_eq_true, if_false, List.forall_mem_cons] at hstep
      obtain ⟨hfirst, hstep⟩ := hstep
      have hnext := hfirst trivial hstate prepared hinv
      have hupholds := (hstate.visited context hholds p).upholds hholds hstate
      simp only [preparedAt, List.flatMap_cons, ← List.append_assoc]
      simp only [Visit.after] at hnext
      generalize state.visit context p = answer at hstep hnext hupholds
      obtain ⟨error | _, state'⟩ := answer
      · simpa using hnext
      · exact ih (completed + 1) state' _ hstep (hupholds (harmless_ok ())) hnext

end ExecutionState

end TensorEngine
