import TensorEngine.Proofs.Execution.Traces
import TensorEngine.Proofs.Program.Assembly

/-!
# The instances of a build

A build without a store makes the instances one after the other, each in the state that the one
before has left: it binds an instance, and prepares it when all its extents are known.  What the
instance counts then is read off this preparation; what it leaves in the cache, off the keys before
and after it.
-/

namespace TensorEngine

variable {ι ω : Type}

/-- The making of an instance in the course of a build. -/
structure Making (ι ω : Type) where
  context : SpecializeContext ι
  /-- The state in which the instance is made. -/
  state : BuildState ι ω
  node : Node
  declared : List Layout

namespace Making

variable [Implementation ι ω] {making : Making ι ω} {standard : Standard ι ω}
  {inst : PrimitiveInstance ι} {state : BuildState ι ω} {found : Option Preparation}
  {cache : ImplementationCache ι}

def after (making : Making ι ω) : BuildState ι ω :=
  (making.state.buildInstance making.node making.declared making.context).2

/-- The preparation of the new instance, when all extents are known and it succeeds. -/
def preparation? (making : Making ι ω) : Option Preparation := do
  let shapes ← making.node.staticShapes? making.declared
  match (PrimitiveInstance.ofNode making.node making.declared : PrimitiveInstance ι).bind
      making.context.registry making.context.device with
  | (.error _, _) => none
  | (.ok _, inst) =>
    match inst.prepare shapes making.context making.state.workspace with
    | (.error _, _) => none
    | (.ok _, prepared, _) =>
      return ⟨shapes, prepared.descriptor? ≠ inst.descriptor?, false⟩

/-- No key gives way to another one. -/
def Retains (making : Making ι ω) : Prop :=
  making.state.workspace.keys ⊆ making.after.workspace.keys

instance (making : Making ι ω) : Decidable making.Retains := by
  unfold Retains
  infer_instance

/-- What making an instance comes to: it is bound, and prepared when all extents are known. -/
inductive Does (standard : Standard ι ω) (making : Making ι ω) :
    Option Preparation → PrimitiveInstance ι → BuildState ι ω → Prop
  | undetermined {inst : PrimitiveInstance ι}
      (hnew : BuildState.NewlyBound making.context.registry making.context.device making.node
        making.declared inst)
      (hstats : inst.stats = {}) : Does standard making none inst making.state
  | prepared {inst inst' : PrimitiveInstance ι} {shapes : ConcreteShapes}
      {transition : Transition} {workspace : Workspace ι ω} {state : BuildState ι ω}
      (hnew : BuildState.NewlyBound making.context.registry making.context.device making.node
        making.declared inst)
      (hstats : inst.stats = {})
      (hreadies : inst.Readies shapes making.state.workspace (.ok transition, inst', workspace))
      (hready : standard.Ready shapes inst') (hsame : inst.SamePlace inst')
      (hworkspace : state.workspace = workspace) :
      Does standard making (some ⟨shapes, inst'.descriptor? ≠ inst.descriptor?, false⟩) inst' state

/-- Without a store an instance is made by binding it, up to any standard for the node. -/
theorem does_of_buildInstance (hstore : making.state.store = none)
    (hupheld : ∀ shapes, standard.Upheld making.context.registry making.context.device making.node
      making.declared shapes)
    (hkept : standard.Kept making.state.workspace) {built : PrimitiveInstance ι × Bool}
    (h : (making.state.buildInstance making.node making.declared making.context).1 = .ok built) :
    making.Does standard making.preparation? built.1 making.after ∧
      standard.Kept making.after.workspace := by
  unfold after
  rcases making.state.buildInstance_cases making.node making.declared making.context with
    ⟨_, _, hrestore, _⟩ | ⟨state, hrestore, hbuild⟩
  · rw [BuildState.restore?_of_store_eq_none hstore] at hrestore
    cases hrestore
  · rw [BuildState.restore?_of_store_eq_none hstore] at hrestore
    obtain rfl := (Prod.mk.inj hrestore).2
    rw [hbuild] at h ⊢
    obtain ⟨inst, hinst, rfl⟩ := map_eq_ok_iff.1 h
    unfold BuildState.bindInstance at hinst ⊢
    unfold preparation?
    simp only at hinst ⊢
    cases hbind : (PrimitiveInstance.ofNode making.node making.declared :
        PrimitiveInstance ι).bind making.context.registry making.context.device with
    | mk result bound =>
      rw [hbind] at hinst
      cases result with
      | error error => exact absurd hinst error_ne_ok
      | ok _ =>
        obtain ⟨selection, descriptor, hselects, hbound⟩ :=
          PrimitiveInstance.exists_selects_of_bind hbind
        have hnew : BuildState.NewlyBound making.context.registry making.context.device making.node
            making.declared bound := hbound ▸ ⟨rfl, rfl, rfl, _, rfl, .mk hselects⟩
        have hstats : bound.stats = {} := hbound ▸ rfl
        cases hshapes : making.node.staticShapes? making.declared with
        | none =>
          rw [hshapes] at hinst
          obtain rfl := Except.ok.inj hinst
          exact ⟨.undetermined hnew hstats, hkept⟩
        | some shapes =>
          have hreadies := PrimitiveInstance.readies_prepare (.inl hnew.state_eq) shapes
            making.context making.state.workspace
          have hprepared : standard.Prepares shapes bound
              (bound.prepare shapes making.context making.state.workspace) :=
            hnew.prepares (hupheld shapes) hkept
          simp only [hshapes] at hinst ⊢
          cases hprepare : bound.prepare shapes making.context making.state.workspace with
          | mk result answer =>
            obtain ⟨inst', workspace⟩ := answer
            rw [hprepare] at hinst hreadies hprepared
            cases result with
            | error error => exact absurd hinst error_ne_ok
            | ok transition =>
              obtain rfl := Except.ok.inj hinst
              simp only [Option.bind_eq_bind, Option.bind_some, hprepare, Option.pure_def]
              refine ⟨.prepared hnew hstats hreadies (hprepared.ready transition rfl) hprepared.same
                BuildState.workspace_save, ?_⟩
              rw [BuildState.workspace_save]
              exact hprepared.kept

omit [Implementation ι ω] in
/-- One preparation makes one form at most. -/
theorem finalizations_le (h : inst.Counts found.toList) :
    inst.stats.finalizations ≤ (found.toList.map Preparation.shapes).toFinset.card := by
  have hacquisitions := h.acquisitions_eq
  rw [h.respecializations_eq] at hacquisitions
  cases found with
  | none =>
    simp only [Option.toList_none, List.map_nil, changes, if_true] at hacquisitions
    omega
  | some preparation =>
    simp only [Option.toList_some, List.map_singleton, changes, List.cons_ne_nil, if_false]
      at hacquisitions
    simp only [Option.toList_some, List.map_singleton, List.toFinset_cons, List.toFinset_nil,
      insert_empty_eq, Finset.card_singleton]
    omega

omit [Implementation ι ω] in
/-- An instance that was bound and not prepared yet counts nothing. -/
theorem tallies_nil (hstate : inst.state = .bound) (hstats : inst.stats = {}) : inst.Tallies [] :=
  ⟨⟨by rw [hstats]; rfl, by rw [hstats]; rfl, by rw [hstats]; rfl, by rw [hstats]; rfl⟩,
    fun _ ↦ rfl, fun hready ↦ absurd (hstate.symm.trans hready) nofun⟩

/-- A new instance is that of its node. -/
theorem Does.node_eq (h : making.Does standard found inst state) : inst.node = making.node := by
  cases h with
  | undetermined hnew => exact hnew.node_eq
  | prepared hnew _ _ _ hsame => exact hsame.node_eq.trans hnew.node_eq

/-- A new instance counts its preparation. -/
theorem Does.tallies (h : making.Does standard found inst state)
    (hshaped : ∀ node shapes entry, standard.form node shapes entry → entry.form.shapes = shapes) :
    inst.Tallies found.toList := by
  cases h with
  | undetermined hnew hstats => exact tallies_nil hnew.state_eq hstats
  | prepared hnew hstats hreadies hready =>
    obtain ⟨entry, _, hform, hruns⟩ := hready.entry
    obtain ⟨bound, hsome, _⟩ := hnew.exists_offer
    exact (tallies_nil hnew.state_eq hstats).readies hreadies (by rw [hsome]; rfl)
      ⟨_, hform, hshaped _ _ _ hruns⟩

/-- Without a cache nothing is taken from it. -/
theorem Does.uncached (h : making.Does standard found inst state)
    (hcache : making.state.workspace.cache = none) :
    state.workspace.cache = none ∧ inst.stats.cacheHits = 0 := by
  cases h with
  | undetermined _ hstats => exact ⟨hcache, by rw [hstats]⟩
  | prepared _ hstats hreadies _ _ hworkspace =>
    obtain ⟨hnone, hhits⟩ := hreadies.uncached hcache
    exact ⟨hworkspace ▸ hnone, by rw [hhits, hstats]⟩

/-- The extents that a new instance was prepared for are cached. -/
theorem Does.mem_keys (h : making.Does standard found inst state)
    (hshaped : ∀ node shapes entry, standard.form node shapes entry → entry.form.shapes = shapes)
    (hcache : making.state.workspace.cache = some cache) (hcapacity : 0 < cache.capacity) :
    ∃ cache', state.workspace.cache = some cache' ∧ 0 < cache'.capacity ∧
      ∀ preparation ∈ found.toList,
        (making.node.signature making.declared, preparation.shapes) ∈ cache'.keys := by
  cases h with
  | undetermined => exact ⟨cache, hcache, hcapacity, List.forall_mem_nil _⟩
  | prepared hnew hstats hreadies hready _ hworkspace =>
    obtain ⟨entry, _, hform, hruns⟩ := hready.entry
    obtain ⟨cache', hcache', hsame, hkey⟩ := hreadies.mem_keys hcache hcapacity
      ⟨_, hform, hshaped _ _ _ hruns⟩ (tallies_nil hnew.state_eq hstats)
    rw [PrimitiveInstance.signature, hnew.node_eq, hnew.declared_eq] at hkey
    refine ⟨cache', hworkspace ▸ hcache', hsame ▸ hcapacity, fun preparation hmem ↦ ?_⟩
    obtain rfl := List.mem_singleton.1 hmem
    refine hkey.resolve_left ?_
    rintro ⟨_, hmem, _⟩
    cases hmem

end Making

/-! ## All instances -/

namespace BuildState

variable [Implementation ι ω] {standard : Standard ι ω} {graph : Graph}
  {context : SpecializeContext ι} {state last : BuildState ι ω} {nodes : List Node}
  {made : List (Making ι ω)} {built : List (PrimitiveInstance ι)}
  {cache : ImplementationCache ι}

/-- The makings of the instances of nodes, up to the first failure. -/
def makings (graph : Graph) (context : SpecializeContext ι) (state : BuildState ι ω) :
    List Node → List (Making ι ω)
  | [] => []
  | node :: rest =>
    ⟨context, state, node, graph.inputLayouts node⟩ ::
      match state.buildInstance node (graph.inputLayouts node) context with
      | (.error _, _) => []
      | (.ok _, state) => makings graph context state rest

/-- Each making starts from the state that the one before has left, and makes the instance of its
node. -/
inductive Makes (standard : Standard ι ω) (graph : Graph) : BuildState ι ω → List Node →
    List (Making ι ω) → List (PrimitiveInstance ι) → BuildState ι ω → Prop
  | nil (state : BuildState ι ω) : Makes standard graph state [] [] [] state
  | cons {making : Making ι ω} {inst : PrimitiveInstance ι} {last : BuildState ι ω}
      {nodes : List Node} {made : List (Making ι ω)} {built : List (PrimitiveInstance ι)}
      (hdeclared : making.declared = graph.inputLayouts making.node)
      (hdoes : making.Does standard making.preparation? inst making.after)
      (hrest : Makes standard graph making.after nodes made built last) :
      Makes standard graph making.state (making.node :: nodes) (making :: made)
        (inst :: built) last

/-- A build without a store makes one instance after the other. -/
theorem makes_of_buildInstances
    (hupheld : ∀ node ∈ graph.nodes, ∀ shapes,
      standard.Upheld context.registry context.device node (graph.inputLayouts node) shapes)
    (nodes : List Node) (hnodes : ∀ node ∈ nodes, node ∈ graph.nodes) :
    ∀ {state : BuildState ι ω} {built : List (PrimitiveInstance ι × Bool)}, state.store = none →
      standard.Kept state.workspace →
      (state.buildInstances graph context nodes).1 = .ok built →
        Makes standard graph state nodes (state.makings graph context nodes)
          (built.map Prod.fst) (state.buildInstances graph context nodes).2 := by
  induction nodes with
  | nil =>
    intro state built _ _ h
    obtain rfl := Except.ok.inj h
    exact .nil state
  | cons node nodes ih =>
    intro state built hstore hkept h
    rw [List.forall_mem_cons] at hnodes
    obtain ⟨making, hmaking⟩ : ∃ making : Making ι ω,
        making = ⟨context, state, node, graph.inputLayouts node⟩ := ⟨_, rfl⟩
    have hmade : ∀ {first : PrimitiveInstance ι × Bool},
        (state.buildInstance node (graph.inputLayouts node) context).1 = .ok first →
          making.Does standard making.preparation? first.1 making.after ∧
            standard.Kept making.after.workspace := by
      subst hmaking
      exact fun h ↦ Making.does_of_buildInstance hstore (hupheld node hnodes.1) hkept h
    unfold buildInstances at h ⊢
    unfold makings
    cases hbuild : state.buildInstance node (graph.inputLayouts node) context with
    | mk result next =>
      have hafter : making.after = next := by
        rw [hmaking]
        exact congrArg Prod.snd hbuild
      have hnext : next.store = none := by
        have hkeeps : (state.buildInstance node (graph.inputLayouts node) context).2.store = none :=
          store_buildInstance hstore
        rwa [hbuild] at hkeeps
      rw [hbuild] at h hmade
      cases result with
      | error error => exact absurd h error_ne_ok
      | ok first =>
        obtain ⟨hdoes, hkept'⟩ := hmade rfl
        rw [hafter] at hkept'
        have hrest := @ih hnodes.2 next
        simp only at h ⊢
        generalize next.buildInstances graph context nodes = answer at h hrest ⊢
        obtain ⟨_ | others, last⟩ := answer
        · exact absurd h error_ne_ok
        · obtain rfl := Except.ok.inj h
          have hlater := hrest hnext hkept' rfl
          rw [← hafter] at hlater ⊢
          subst hmaking
          exact .cons rfl hdoes hlater

/-- Every instance is that of its node. -/
theorem Makes.forall₂_node_eq (h : Makes standard graph state nodes made built last) :
    List.Forall₂ (fun node inst ↦ inst.node = node) nodes built := by
  induction h with
  | nil => exact .nil
  | cons _ hdoes _ ih => exact .cons hdoes.node_eq ih

/-- Every instance counts its preparation. -/
theorem Makes.tallies (h : Makes standard graph state nodes made built last)
    (hshaped : ∀ node shapes entry, standard.form node shapes entry → entry.form.shapes = shapes)
    {p : Nat} {inst : PrimitiveInstance ι} (hinst : built[p]? = some inst) :
    ∃ making, made[p]? = some making ∧ inst.Tallies making.preparation?.toList := by
  induction h generalizing p with
  | nil => cases hinst
  | @cons making _ _ _ _ _ _ hdoes _ ih =>
    cases p with
    | zero =>
      obtain rfl := Option.some.inj hinst
      exact ⟨making, rfl, hdoes.tallies hshaped⟩
    | succ p => exact ih hinst

/-- Without a cache nothing is taken from it. -/
theorem Makes.uncached (h : Makes standard graph state nodes made built last)
    (hcache : state.workspace.cache = none) :
    last.workspace.cache = none ∧ ∀ inst ∈ built, inst.stats.cacheHits = 0 := by
  induction h with
  | nil => exact ⟨hcache, List.forall_mem_nil _⟩
  | cons _ hdoes _ ih =>
    obtain ⟨hnone, hhits⟩ := hdoes.uncached hcache
    obtain ⟨hlast, hothers⟩ := ih hnone
    exact ⟨hlast, List.forall_mem_cons.2 ⟨hhits, hothers⟩⟩

/-- As long as no key gives way, all extents that instances were prepared for are cached in the
end. -/
theorem Makes.mem_keys (h : Makes standard graph state nodes made built last)
    (hshaped : ∀ node shapes entry, standard.form node shapes entry → entry.form.shapes = shapes)
    (hcache : state.workspace.cache = some cache) (hcapacity : 0 < cache.capacity)
    (hretains : ∀ making ∈ made, making.Retains) :
    ∃ cache', last.workspace.cache = some cache' ∧ 0 < cache'.capacity ∧
      cache.keys ⊆ cache'.keys ∧ ∀ {p : Nat} {making : Making ι ω} {node : Node},
        made[p]? = some making → nodes[p]? = some node →
        ∀ preparation ∈ making.preparation?.toList,
          (node.signature (graph.inputLayouts node), preparation.shapes) ∈ cache'.keys := by
  induction h generalizing cache with
  | nil => exact ⟨cache, hcache, hcapacity, fun _ h ↦ h, nofun⟩
  | @cons making _ _ _ _ _ hdeclared hdoes _ ih =>
    rw [List.forall_mem_cons] at hretains
    obtain ⟨hfirst, hretains⟩ := hretains
    obtain ⟨next, hnext, hroom, hkeys⟩ := hdoes.mem_keys hshaped hcache hcapacity
    rw [Making.Retains, Workspace.keys_eq hcache, Workspace.keys_eq hnext] at hfirst
    obtain ⟨cache', hcache', hcapacity', hsubset, hothers⟩ := ih hnext hroom hretains
    refine ⟨cache', hcache', hcapacity', fun _ hkey ↦ hsubset (hfirst hkey), ?_⟩
    intro p other node hother hnode preparation hmem
    cases p with
    | zero =>
      obtain rfl := Option.some.inj hother
      obtain rfl := Option.some.inj hnode
      rw [← hdeclared]
      exact hsubset (hkeys preparation hmem)
    | succ p => exact hothers hother hnode preparation hmem

end BuildState

end TensorEngine
