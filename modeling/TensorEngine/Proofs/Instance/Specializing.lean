import TensorEngine.Proofs.Instance.Cache
import TensorEngine.Proofs.Registry.Selection
import TensorEngine.Proofs.Sequencing

/-!
# How an instance comes by its form

An instance that changes to other extents takes a form from the cache, or one is made: attempts to
finalize what is bound or a candidate are made one after the other, until one succeeds.  A form that
was made is the answer of the last thing that was finalized, so nothing has changed since; and it is
the only one that is added to the cache.
-/

namespace TensorEngine

variable {ι ω α : Type} {graph : Graph} {shapes : ConcreteShapes}
  {workspace workspace' : Workspace ι ω}
  {inst inst' inst'' : PrimitiveInstance ι}

/-- Nodes of one signature have the same operation and the same declared layouts. -/
def Graph.SignaturesFaithful (graph : Graph) : Prop :=
  ∀ node ∈ graph.nodes, ∀ other ∈ graph.nodes,
    node.signature (graph.inputLayouts node) = other.signature (graph.inputLayouts other) →
      node.op = other.op ∧ graph.inputLayouts node = graph.inputLayouts other ∧
        node.outputs = other.outputs

instance (graph : Graph) : Decidable graph.SignaturesFaithful :=
  inferInstanceAs (Decidable (∀ node ∈ graph.nodes, ∀ other ∈ graph.nodes, _ → _))

namespace PrimitiveInstance

/-- The instance is the one of a node of the graph. -/
structure Of (graph : Graph) (inst : PrimitiveInstance ι) : Prop where
  node_mem : inst.node ∈ graph.nodes
  declared_eq : inst.declaredInputs = graph.inputLayouts inst.node

theorem Of.exists_place (h : inst.Of graph) : ∃ p : Nat, graph.nodes[p]? = some inst.node :=
  List.mem_iff_getElem?.1 h.node_mem

theorem Of.signature_eq (h : inst.Of graph) :
    inst.signature = inst.node.signature (graph.inputLayouts inst.node) := by
  rw [signature, h.declared_eq]

/-- Two instances of one node with the same slots. -/
structure SamePlace (inst inst' : PrimitiveInstance ι) : Prop where
  node_eq : inst'.node = inst.node
  declared_eq : inst'.declaredInputs = inst.declaredInputs
  inputSlots_eq : inst'.inputSlots = inst.inputSlots
  outputSlot_eq : inst'.outputSlot = inst.outputSlot

theorem SamePlace.refl (inst : PrimitiveInstance ι) : SamePlace inst inst := ⟨rfl, rfl, rfl, rfl⟩

theorem SamePlace.trans (h : SamePlace inst inst')
    (h' : SamePlace inst' inst'') : SamePlace inst inst'' :=
  ⟨h'.node_eq.trans h.node_eq, h'.declared_eq.trans h.declared_eq,
    h'.inputSlots_eq.trans h.inputSlots_eq, h'.outputSlot_eq.trans h.outputSlot_eq⟩

end PrimitiveInstance

theorem PrimitiveInstance.SamePlace.signature_eq (h : inst.SamePlace inst') :
    inst'.signature = inst.signature := by
  rw [signature, signature, h.node_eq, h.declared_eq]

/-! ## What is added to the cache -/

namespace Workspace

/-- There is a cache as before, with entries from before and perhaps new ones. -/
structure Adds (workspace workspace' : Workspace ι ω)
    (new : CacheKey → FinalizedImplementation ι → Prop) : Prop where
  isSome_eq : workspace'.cache.isSome = workspace.cache.isSome
  entries : ∀ cache', workspace'.cache = some cache' → ∃ cache, workspace.cache = some cache ∧
    ∀ key entry, (key, entry) ∈ cache'.entries → (key, entry) ∈ cache.entries ∨ new key entry

variable {new : CacheKey → FinalizedImplementation ι → Prop}

theorem adds_of_cache_eq (h : workspace'.cache = workspace.cache) : workspace.Adds workspace' new :=
  ⟨by rw [h], fun cache hcache ↦ ⟨cache, h ▸ hcache, fun _ _ ↦ .inl⟩⟩

theorem Adds.refl (workspace : Workspace ι ω) : workspace.Adds workspace new := adds_of_cache_eq rfl

/-- Additions after nothing was added. -/
theorem Adds.trans {middle : Workspace ι ω} (h : workspace.Adds middle fun _ _ ↦ False)
    (h' : middle.Adds workspace' new) : workspace.Adds workspace' new := by
  refine ⟨h'.isSome_eq.trans h.isSome_eq, fun cache' hcache' ↦ ?_⟩
  obtain ⟨_, hmiddle, hentries'⟩ := h'.entries cache' hcache'
  obtain ⟨cache, hcache, hentries⟩ := h.entries _ hmiddle
  refine ⟨cache, hcache, fun key entry hmem ↦ ?_⟩
  exact (hentries' key entry hmem).imp_left fun hold ↦ (hentries key entry hold).resolve_right id

/-- What holds of the entries from before and of the new ones holds of all. -/
theorem Adds.keeps {P : CacheKey → FinalizedImplementation ι → Prop}
    (h : workspace.Adds workspace' new) (hkeeps : workspace.Keeps P)
    (hnew : workspace.cache.isSome = true → ∀ key entry, new key entry → P key entry) :
    workspace'.Keeps P := by
  intro cache' hcache' key entry hmem
  obtain ⟨cache, hcache, hentries⟩ := h.entries cache' hcache'
  rcases hentries key entry hmem with hold | hentry
  · exact hkeeps cache hcache key entry hold
  · exact hnew (by rw [hcache]; rfl) key entry hentry

/-- Signatures tell the nodes of the graph apart, and what is cached under the signature of a node
is good for it. -/
def KeepsFor (workspace : Workspace ι ω) (graph : Graph)
    (good : Node → ConcreteShapes → FinalizedImplementation ι → Prop) : Prop :=
  ∀ cache, workspace.cache = some cache → graph.SignaturesFaithful ∧
    ∀ key entry, (key, entry) ∈ cache.entries → ∀ node ∈ graph.nodes,
      node.signature (graph.inputLayouts node) = key.1 → good node key.2 entry

/-- Nothing is in a new cache. -/
theorem keepsFor_ofCapacity? {capacity : Nat} {session : Session ω}
    {good : Node → ConcreteShapes → FinalizedImplementation ι → Prop}
    (h : capacity = 0 ∨ graph.SignaturesFaithful) :
    (⟨ImplementationCache.ofCapacity? capacity, session⟩ : Workspace ι ω).KeepsFor graph good := by
  intro cache hcache
  unfold ImplementationCache.ofCapacity? at hcache
  split at hcache
  · cases hcache
  · rename_i hne
    obtain rfl := Option.some.inj hcache
    exact ⟨h.resolve_left hne, fun _ _ hmem ↦ absurd hmem List.not_mem_nil⟩

/-- What is good for a node is good for all nodes of its signature, so it may be added. -/
theorem Adds.keepsFor {good good' : Node → ConcreteShapes → FinalizedImplementation ι → Prop}
    (h : workspace.Adds workspace' new) (hkeeps : workspace.KeepsFor graph good)
    (hold : ∀ node shapes entry, good node shapes entry → good' node shapes entry)
    (hnew : ∀ key entry, new key entry → ∃ node ∈ graph.nodes,
      key.1 = node.signature (graph.inputLayouts node) ∧ good' node key.2 entry)
    (hcongr : ∀ {node other : Node} {shapes : ConcreteShapes} {entry : FinalizedImplementation ι},
      good' node shapes entry → node.op = other.op →
      graph.inputLayouts node = graph.inputLayouts other → node.outputs = other.outputs →
      good' other shapes entry) : workspace'.KeepsFor graph good' := by
  intro cache' hcache'
  obtain ⟨cache, hcache, hentries⟩ := h.entries cache' hcache'
  obtain ⟨hfaithful, hgood⟩ := hkeeps cache hcache
  refine ⟨hfaithful, fun key entry hmem other hother hsig ↦ ?_⟩
  rcases hentries key entry hmem with hmem | hentry
  · exact hold _ _ _ (hgood key entry hmem other hother hsig)
  · obtain ⟨node, hnode, hkey, hentry⟩ := hnew key entry hentry
    obtain ⟨hop, hinputs, hout⟩ := hfaithful node hnode other hother (hkey.symm.trans hsig.symm)
    exact hcongr hentry hop hinputs hout

/-- Keeping a form adds it and nothing else. -/
theorem Adds.keep (h : workspace.Adds workspace' fun _ _ ↦ False) (key : CacheKey)
    (entry : FinalizedImplementation ι) :
    workspace.Adds (workspace'.keep key entry) fun key' entry' ↦ key' = key ∧ entry' = entry := by
  refine ⟨Option.isSome_map.trans h.isSome_eq, fun cache'' hcache'' ↦ ?_⟩
  obtain ⟨cache', hcache', rfl⟩ := Option.map_eq_some_iff.1 hcache''
  obtain ⟨cache, hcache, hentries⟩ := h.entries cache' hcache'
  refine ⟨cache, hcache, fun key' entry' hmem ↦ ?_⟩
  rcases ImplementationCache.mem_entries_put hmem with heq | hmem
  · exact .inr (Prod.mk.inj heq)
  · exact .inl ((hentries key' entry' hmem).resolve_right id)

/-- Looking at the cache adds nothing, and answers one of its entries. -/
theorem cached_spec (workspace : Workspace ι ω) (key : CacheKey)
    (acceptable : FinalizedImplementation ι → Bool) :
    (workspace.cached key acceptable).2.environment = workspace.environment ∧
      workspace.Adds (workspace.cached key acceptable).2 (fun _ _ ↦ False) ∧
      ∀ hit, (workspace.cached key acceptable).1 = some hit →
        ∃ cache, workspace.cache = some cache ∧ (key, hit) ∈ cache.entries := by
  cases hcache : workspace.cache with
  | none =>
    simp only [cached, hcache]
    exact ⟨trivial, adds_of_cache_eq rfl, nofun⟩
  | some cache =>
    obtain ⟨hkept, hhit⟩ := cache.get_spec key
    simp only [cached, hcache]
    generalize cache.get key = answer at hkept hhit
    obtain ⟨hit, cache'⟩ := answer
    have hadds : ∀ session : Session ω,
        workspace.Adds ⟨some cache', session⟩ (fun _ _ ↦ False) := by
      refine fun session ↦ ⟨by rw [hcache]; rfl, fun other hother ↦ ⟨cache, hcache, ?_⟩⟩
      obtain rfl : cache' = other := Option.some.inj hother
      exact fun key entry hmem ↦ .inl (hkept _ hmem)
    cases hfilter : hit.filter acceptable with
    | none => exact ⟨rfl, hadds _, nofun⟩
    | some entry =>
      refine ⟨rfl, hadds _, fun other hother ↦ ⟨cache, rfl, ?_⟩⟩
      obtain rfl : entry = other := Option.some.inj hother
      exact hhit entry (Option.filter_eq_some_iff.1 hfilter).1

end Workspace

/-! ## Attempts to finalize -/

section

variable [Implementation ι ω] {attempts attempts' : BoundImplementation ι → Prop} {op : OpSpec}

/-- Attempts to finalize that failed, one after the other. -/
inductive Tries (attempts : BoundImplementation ι → Prop) (op : OpSpec) (shapes : ConcreteShapes) :
    ω → ω → Prop
  | refl (env : ω) : Tries attempts op shapes env env
  | step {bound : BoundImplementation ι} {error : BackendError} {impl : ι} {env env' env'' : ω}
      (hattempt : attempts bound)
      (hfails : Implementation.finalize bound.implementation shapes op env =
        (.error error, impl, env'))
      (hrest : Tries attempts op shapes env' env'') : Tries attempts op shapes env env''

/-- A form that was made after attempts that failed. -/
structure Makes (attempts : BoundImplementation ι → Prop) (op : OpSpec) (shapes : ConcreteShapes)
    (start : ω) (entry : FinalizedImplementation ι) (env : ω) : Prop where
  made : ∃ bound before, attempts bound ∧ Tries attempts op shapes start before ∧
    Implementation.finalize bound.implementation shapes op before =
      (.ok entry.form, entry.bound.implementation, env) ∧
    entry.bound = { bound with implementation := entry.bound.implementation }

/-- What attempts keep as long as each of them keeps it. -/
theorem Tries.preserves {P : ω → Prop} {env env' : ω} (h : Tries attempts op shapes env env')
    (hstep : ∀ bound env, attempts bound → P env →
      P (Implementation.finalize bound.implementation shapes op env).2.2)
    (henv : P env) : P env' := by
  induction h with
  | refl => exact henv
  | step hattempt hfails _ ih =>
    have hkept := hstep _ _ hattempt henv
    rw [hfails] at hkept
    exact ih hkept

theorem Tries.mono {env env' : ω} (h : Tries attempts op shapes env env')
    (hattempts : ∀ bound, attempts bound → attempts' bound) :
    Tries attempts' op shapes env env' := by
  induction h with
  | refl env => exact .refl env
  | step hattempt hfails _ ih => exact .step (hattempts _ hattempt) hfails ih

variable {entry : FinalizedImplementation ι} {env env' : ω}

theorem Makes.mono (h : Makes attempts op shapes env entry env')
    (hattempts : ∀ bound, attempts bound → attempts' bound) :
    Makes attempts' op shapes env entry env' := by
  obtain ⟨bound, before, hattempt, htries, hmade⟩ := h.made
  exact ⟨bound, before, hattempts bound hattempt, htries.mono hattempts, hmade⟩

theorem Tries.trans {env'' : ω} (h : Tries attempts op shapes env env')
    (h' : Tries attempts op shapes env' env'') : Tries attempts op shapes env env'' := by
  induction h with
  | refl => exact h'
  | step hattempt hfails _ ih => exact .step hattempt hfails (ih h')

/-- Failed attempts in front of those that led to a form. -/
theorem Makes.after {start : ω} (h : Makes attempts op shapes env entry env')
    (htries : Tries attempts op shapes start env) :
    Makes attempts op shapes start entry env' := by
  obtain ⟨bound, before, hattempt, htries', hmade⟩ := h.made
  exact ⟨bound, before, hattempt, htries.trans htries', hmade⟩

end

/-! ## Changing to other extents -/

/-- A new implementation of a candidate for a node. -/
inductive Registry.Offers (registry : Registry ι) (node : Node) (declared : List Layout)
    (device : DeviceCaps) : BoundImplementation ι → Prop
  | mk {selection : Selection} {descriptor : Descriptor ι}
      (h : registry.Selects node declared device selection descriptor) :
      Offers registry node declared device ⟨selection.descriptor, descriptor.instantiate node,
        selection.requiresConversion⟩

namespace PrimitiveInstance

variable {registry : Registry ι} {device : DeviceCaps}

variable [Implementation ι ω] {attempts attempts' : BoundImplementation ι → Prop}

/-- The implementation takes the extents. -/
def Takes (inst : PrimitiveInstance ι) (shapes : ConcreteShapes)
    (bound : BoundImplementation ι) : Prop :=
  Implementation.supports bound.implementation (inst.concreteInputs shapes)
    (inst.concreteOutputs shapes) = true

/-- The candidates that take the extents. -/
def Candidate (registry : Registry ι) (device : DeviceCaps) (inst : PrimitiveInstance ι)
    (shapes : ConcreteShapes) (bound : BoundImplementation ι) : Prop :=
  registry.Offers inst.node inst.declaredInputs device bound ∧ inst.Takes shapes bound

/-- What may be finalized for an instance: what it is bound to or a candidate, if it takes the
extents. -/
def Attempts (registry : Registry ι) (device : DeviceCaps) (inst : PrimitiveInstance ι)
    (shapes : ConcreteShapes) (bound : BoundImplementation ι) : Prop :=
  (inst.bound = some bound ∨ registry.Offers inst.node inst.declaredInputs device bound) ∧
    inst.Takes shapes bound

/-- Why a change to other extents fails: there is no candidate at all, or none can be finalized. -/
inductive GivesUp (registry : Registry ι) (device : DeviceCaps) (inst : PrimitiveInstance ι)
    (shapes : ConcreteShapes) : RuntimeError → Prop
  | unmatched {error : RuntimeError}
      (h : registry.candidates inst.node inst.declaredInputs device = .error error) :
      GivesUp registry device inst shapes error
  | exhausted (failures : List String) :
      GivesUp registry device inst shapes (inst.finalizationFailure shapes failures)

/-- How a change to a new form can go: it is made and added to the cache, or all attempts fail. -/
inductive Changes (registry : Registry ι) (device : DeviceCaps)
    (attempts : BoundImplementation ι → Prop) (inst : PrimitiveInstance ι)
    (shapes : ConcreteShapes) (workspace : Workspace ι ω) :
    Except RuntimeError α × PrimitiveInstance ι × Workspace ι ω → Prop
  | made {a : α} {inst' : PrimitiveInstance ι} {workspace' : Workspace ι ω}
      {entry : FinalizedImplementation ι}
      (hmakes : Makes attempts inst.node.op shapes workspace.environment entry
        workspace'.environment)
      (hadds : workspace.Adds workspace' fun key new ↦
        key = (inst.signature, entry.form.shapes) ∧ new = entry)
      (hsame : inst.SamePlace inst') (hstate : inst'.state = .ready)
      (hbound : inst'.bound = some entry.bound) (hform : inst'.form = some entry.form) :
      Changes registry device attempts inst shapes workspace (.ok a, inst', workspace')
  | failed {error : RuntimeError} {inst' : PrimitiveInstance ι} {workspace' : Workspace ι ω}
      (htries : Tries attempts inst.node.op shapes workspace.environment workspace'.environment)
      (hadds : workspace.Adds workspace' fun _ _ ↦ False) (hsame : inst.SamePlace inst')
      (hstate : inst'.state = .failed) (hwhy : inst.GivesUp registry device shapes error) :
      Changes registry device attempts inst shapes workspace (.error error, inst', workspace')

/-- Giving up poisons the program. -/
theorem GivesUp.poisonsProgram {error : RuntimeError}
    (h : inst.GivesUp registry device shapes error) : error.poisonsProgram = true := by
  cases h with
  | unmatched hcandidates =>
    unfold Registry.candidates at hcandidates
    split at hcandidates
    · exact Except.error.inj hcandidates ▸ rfl
    · cases hcandidates
  | exhausted => rfl

theorem GivesUp.of_samePlace {error : RuntimeError}
    (h : inst'.GivesUp registry device shapes error) (hsame : inst.SamePlace inst') :
    inst.GivesUp registry device shapes error := by
  cases h with
  | unmatched hcandidates =>
    rw [hsame.node_eq, hsame.declared_eq] at hcandidates
    exact .unmatched hcandidates
  | exhausted failures =>
    unfold finalizationFailure
    rw [hsame.node_eq]
    exact .exhausted failures

/-- A change that started after failed attempts. -/
theorem Changes.after {middle : Workspace ι ω}
    {answer : Except RuntimeError α × PrimitiveInstance ι × Workspace ι ω}
    (h : inst'.Changes registry device attempts shapes middle answer)
    (hattempts : ∀ bound, attempts bound → attempts' bound) (hsame : inst.SamePlace inst')
    (hadds : workspace.Adds middle fun _ _ ↦ False)
    (htries : Tries attempts' inst.node.op shapes workspace.environment middle.environment) :
    inst.Changes registry device attempts' shapes workspace answer := by
  cases h with
  | made hmakes hadds' hsame' hstate hbound hform =>
    rw [hsame.node_eq] at hmakes
    rw [hsame.signature_eq] at hadds'
    exact .made ((hmakes.mono hattempts).after htries) (hadds.trans hadds') (hsame.trans hsame')
      hstate hbound hform
  | failed htries' hadds' hsame' hstate hwhy =>
    rw [hsame.node_eq] at htries'
    exact .failed (htries.trans (htries'.mono hattempts)) (hadds.trans hadds')
      (hsame.trans hsame') hstate (hwhy.of_samePlace hsame)

/-- How a change to other extents can go: a form is taken from the cache, or the instance changes to
a new one. -/
inductive Specializes (registry : Registry ι) (device : DeviceCaps) (inst : PrimitiveInstance ι)
    (shapes : ConcreteShapes) (workspace : Workspace ι ω) :
    Except RuntimeError α × PrimitiveInstance ι × Workspace ι ω → Prop
  | cached {a : α} {inst' : PrimitiveInstance ι} {workspace' : Workspace ι ω}
      {cache : ImplementationCache ι} {entry : FinalizedImplementation ι}
      (hcache : workspace.cache = some cache)
      (hmem : ((inst.signature, shapes), entry) ∈ cache.entries)
      (henv : workspace'.environment = workspace.environment)
      (hadds : workspace.Adds workspace' fun _ _ ↦ False)
      (hsame : inst.SamePlace inst') (hstate : inst'.state = .ready)
      (hbound : inst'.bound = some entry.bound) (hform : inst'.form = some entry.form) :
      Specializes registry device inst shapes workspace (.ok a, inst', workspace')
  | changed {answer : Except RuntimeError α × PrimitiveInstance ι × Workspace ι ω}
      (h : inst.Changes registry device (inst.Attempts registry device shapes) shapes workspace
        answer) :
      Specializes registry device inst shapes workspace answer

theorem selections_of_candidates {node : Node} {declared : List Layout}
    {selections : List Selection}
    (h : registry.candidates node declared device = .ok selections) :
    selections = registry.selections node declared device := by
  unfold Registry.candidates at h
  split at h
  · cases h
  · exact (Except.ok.inj h).symm

/-- A search among candidates makes a form, or all attempts fail. -/
theorem firstFinalizing_spec (device : DeviceCaps) (inst : PrimitiveInstance ι)
    (shapes : ConcreteShapes) (selections : List Selection) (hmem : ∀ selection ∈ selections,
      selection ∈ registry.selections inst.node inst.declaredInputs device) :
    ∀ env : ω, let answer := firstFinalizing registry inst shapes selections env
      (∃ entry, answer.1 = some entry ∧
        Makes (inst.Candidate registry device shapes) inst.node.op shapes env entry answer.2.2) ∨
      answer.1 = none ∧
        Tries (inst.Candidate registry device shapes) inst.node.op shapes env answer.2.2 := by
  induction selections with
  | nil => exact fun env ↦ .inr ⟨rfl, .refl env⟩
  | cons selection rest ih =>
    intro env
    rw [List.forall_mem_cons] at hmem
    have hrest := ih hmem.2
    unfold firstFinalizing
    obtain ⟨descriptor, hselects⟩ := Registry.exists_selects hmem.1
    simp only [hselects.descriptor_eq]
    split
    · rename_i htakes
      have hcandidate : inst.Candidate registry device shapes ⟨selection.descriptor,
        descriptor.instantiate inst.node, selection.requiresConversion⟩ := ⟨.mk hselects, htakes⟩
      cases hfinalize : Implementation.finalize (descriptor.instantiate inst.node) shapes
        inst.node.op env with
      | mk result answer =>
        obtain ⟨implementation, env'⟩ := answer
        cases result with
        | ok form => exact .inl ⟨_, rfl, _, env, hcandidate, .refl env, hfinalize, rfl⟩
        | error error =>
          rcases hrest env' with ⟨entry, hentry, hmakes⟩ | ⟨hnone, htries⟩
          · exact .inl ⟨entry, hentry, hmakes.after (.step hcandidate hfinalize (.refl _))⟩
          · exact .inr ⟨hnone, .step hcandidate hfinalize htries⟩
    · exact hrest env

/-- Changing over to another implementation tries candidates only. -/
theorem changes_reselect (registry : Registry ι) (device : DeviceCaps)
    (inst : PrimitiveInstance ι) (shapes : ConcreteShapes) (failures : List String)
    (workspace : Workspace ι ω) :
    inst.Changes registry device (inst.Candidate registry device shapes) shapes workspace
      (inst.reselect shapes ⟨registry, device⟩ failures workspace) := by
  have hunchanged : ∀ env : ω, workspace.Adds (workspace.withEnvironment env) fun _ _ ↦ False :=
    fun _ ↦ Workspace.adds_of_cache_eq rfl
  unfold reselect
  split
  · rename_i error hcandidates
    exact .failed (.refl _) (hunchanged _) ⟨rfl, rfl, rfl, rfl⟩ rfl (.unmatched hcandidates)
  · rename_i selections hcandidates
    have hspec := firstFinalizing_spec device inst shapes
      (selections.filter fun selection ↦ some selection.descriptor ≠ inst.descriptor?)
      (fun selection hmem ↦
        selections_of_candidates hcandidates ▸ (List.mem_filter.1 hmem).1) workspace.environment
    simp only at hspec ⊢
    generalize firstFinalizing registry inst shapes _ workspace.environment = answer at hspec ⊢
    obtain ⟨_ | entry, more, env⟩ := answer
    · rcases hspec with ⟨_, hnone, _⟩ | ⟨_, htries⟩
      · cases hnone
      · exact .failed htries (hunchanged _) ⟨rfl, rfl, rfl, rfl⟩ rfl (.exhausted _)
    · rcases hspec with ⟨_, hentry, hmakes⟩ | ⟨hnone, _⟩
      · obtain rfl := Option.some.inj hentry
        exact .made hmakes ((hunchanged env).keep _ _) ⟨rfl, rfl, rfl, rfl⟩ rfl rfl rfl
      · cases hnone

theorem changes_finalizeOrReselect (registry : Registry ι) (device : DeviceCaps)
    (inst : PrimitiveInstance ι) (shapes : ConcreteShapes) (workspace : Workspace ι ω) :
    inst.Changes registry device (inst.Attempts registry device shapes) shapes workspace
      (inst.finalizeOrReselect shapes ⟨registry, device⟩ workspace) := by
  have hcandidates : ∀ bound, inst.Candidate registry device shapes bound →
      inst.Attempts registry device shapes bound := fun _ h ↦ ⟨.inr h.1, h.2⟩
  have hreselect := fun failures ↦ (changes_reselect registry device inst shapes failures
    workspace).after hcandidates (.refl inst) (.refl workspace) (.refl _)
  unfold finalizeOrReselect
  cases hbound : inst.bound with
  | none => exact hreselect []
  | some bound =>
    simp only
    split
    · rename_i hsupports
      have hattempts : inst.Attempts registry device shapes bound := by
        rw [boundSupports, implementation?, hbound, Option.map_some, Option.any_some] at hsupports
        exact ⟨.inl hbound, hsupports⟩
      cases hfinalize : Implementation.finalize bound.implementation shapes inst.node.op
        workspace.environment with
      | mk result answer =>
        obtain ⟨implementation, env⟩ := answer
        have hunchanged : workspace.Adds (workspace.withEnvironment env) fun _ _ ↦ False :=
          Workspace.adds_of_cache_eq rfl
        cases result with
        | ok form =>
          exact .made ⟨bound, _, hattempts, .refl _, hfinalize, rfl⟩ (hunchanged.keep _ _)
            ⟨rfl, rfl, rfl, rfl⟩ rfl rfl rfl
        | error error =>
          exact (changes_reselect registry device
            { inst with bound := some { bound with implementation } } shapes
            [failureText (Implementation.name implementation) error]
            (workspace.withEnvironment env)).after hcandidates ⟨rfl, rfl, rfl, rfl⟩ hunchanged
            (.step hattempts hfinalize (.refl env))
    · exact hreselect []

theorem specializes_specialize (registry : Registry ι) (device : DeviceCaps)
    (inst : PrimitiveInstance ι) (shapes : ConcreteShapes) (workspace : Workspace ι ω) :
    inst.Specializes registry device shapes workspace
      (inst.specialize shapes ⟨registry, device⟩ workspace) := by
  unfold specialize
  simp only
  generalize (fun entry : FinalizedImplementation ι ↦ _ : FinalizedImplementation ι → Bool) =
    acceptable
  obtain ⟨henv, hadds, hhit⟩ := workspace.cached_spec (inst.signature, shapes) acceptable
  generalize workspace.cached (inst.signature, shapes) acceptable = answer at henv hadds hhit
  obtain ⟨_ | entry, workspace'⟩ := answer
  · refine .changed ((changes_finalizeOrReselect registry device inst shapes
      (workspace'.scope Profile.finalizeScope)).after (fun _ ↦ id) (.refl inst)
      (hadds.trans (Workspace.adds_of_cache_eq rfl)) ?_)
    have henv' : (workspace'.scope Profile.finalizeScope).environment = workspace.environment :=
      henv
    rw [henv']
    exact .refl _
  · obtain ⟨cache, hcache, hmem⟩ := hhit entry rfl
    exact .cached hcache hmem henv hadds ⟨rfl, rfl, rfl, rfl⟩ rfl rfl rfl

/-- A change of another instance of the same place that is bound alike. -/
theorem Specializes.of_samePlace
    {answer : Except RuntimeError α × PrimitiveInstance ι × Workspace ι ω}
    (h : inst'.Specializes registry device shapes workspace answer) (hsame : inst.SamePlace inst')
    (hbound : inst'.bound = inst.bound) :
    inst.Specializes registry device shapes workspace answer := by
  cases h with
  | cached hcache hmem henv hadds hsame' hstate hbound hform =>
    rw [hsame.signature_eq] at hmem
    exact .cached hcache hmem henv hadds (hsame.trans hsame') hstate hbound hform
  | changed h =>
    refine .changed (h.after (fun bound hattempt ↦ ?_) hsame (.refl workspace) (.refl _))
    unfold Attempts Takes concreteInputs concreteOutputs at hattempt ⊢
    rw [hsame.node_eq, hsame.declared_eq, hbound] at hattempt
    exact hattempt

/-- An answer with the outcome of a change told in other words. -/
theorem Specializes.relabel {β : Type} {a : α} {b : β}
    (h : inst.Specializes registry device shapes workspace (Except.ok a, inst', workspace'))
    (hsame : inst'.SamePlace inst'') (hstate : inst''.state = inst'.state)
    (hbound : inst''.bound = inst'.bound) (hform : inst''.form = inst'.form) :
    inst.Specializes registry device shapes workspace (Except.ok b, inst'', workspace') := by
  cases h with
  | cached hcache hmem henv hadds hsame' hstate' hbound' hform' =>
    exact .cached hcache hmem henv hadds (hsame'.trans hsame) (hstate.trans hstate')
      (hbound.trans hbound') (hform.trans hform')
  | changed h =>
    cases h with
    | made hmakes hadds hsame' hstate' hbound' hform' =>
      exact .changed (.made hmakes hadds (hsame'.trans hsame) (hstate.trans hstate')
        (hbound.trans hbound') (hform.trans hform'))

theorem Specializes.relabel_error {β : Type} {error : RuntimeError}
    (h : inst.Specializes registry device shapes workspace
      ((.error error : Except RuntimeError α), inst', workspace')) :
    inst.Specializes registry device shapes workspace
      ((.error error : Except RuntimeError β), inst', workspace') := by
  cases h with
  | changed h =>
    cases h with
    | failed htries hadds hsame hstate hwhy =>
      exact .changed (.failed htries hadds hsame hstate hwhy)

/-- A preparation finds the instance ready for the extents, or changes it. -/
theorem prepare_cases (registry : Registry ι) (device : DeviceCaps) (inst : PrimitiveInstance ι)
    (shapes : ConcreteShapes) (workspace : Workspace ι ω)
    (hstate : inst.state = .bound ∨ inst.state = .ready) :
    (inst.state = .ready ∧ inst.needsReshape shapes = false ∧
      inst.prepare shapes ⟨registry, device⟩ workspace = (.ok .unchanged, inst, workspace)) ∨
    inst.Specializes registry device shapes workspace
      (inst.prepare shapes ⟨registry, device⟩ workspace) := by
  unfold prepare
  rcases hstate with hstate | hstate
  · right
    have hspecializes := specializes_specialize registry device inst shapes workspace
    simp only [hstate]
    generalize inst.specialize shapes ⟨registry, device⟩ workspace = answer at hspecializes
    obtain ⟨error | reselected, inst', workspace'⟩ := answer
    · exact hspecializes.relabel_error
    · exact hspecializes.relabel (.refl _) rfl rfl rfl
  · simp only [hstate]
    by_cases hneeds : inst.needsReshape shapes = true
    · right
      have hspecializes : inst.Specializes registry device shapes workspace
          ((inst.withState .stale).specialize shapes ⟨registry, device⟩ workspace) :=
        (specializes_specialize registry device (inst.withState .stale) shapes
          workspace).of_samePlace ⟨rfl, rfl, rfl, rfl⟩ rfl
      simp only [hneeds, decide_true, Bool.not_true, Bool.and_false, Bool.false_eq_true, if_false]
      generalize (inst.withState .stale).specialize shapes ⟨registry, device⟩ workspace = answer
        at hspecializes
      obtain ⟨error | reselected, inst', workspace'⟩ := answer
      · exact hspecializes.relabel_error
      · exact hspecializes.relabel ⟨rfl, rfl, rfl, rfl⟩ rfl rfl rfl
    · left
      rw [Bool.not_eq_true] at hneeds
      simp only [hneeds, decide_true, Bool.not_false, Bool.and_true, if_true]
      exact ⟨trivial, trivial, trivial⟩

/-- Where there are candidates, an instance that is bound or ready cannot be prepared only because
none of them can be finalized. -/
theorem finalizationFailure_of_prepare (inst : PrimitiveInstance ι) (shapes : ConcreteShapes)
    (workspace : Workspace ι ω) {selections : List Selection} {error : RuntimeError}
    (hcandidates : registry.candidates inst.node inst.declaredInputs device = .ok selections)
    (hstate : inst.state = .bound ∨ inst.state = .ready)
    (h : (inst.prepare shapes ⟨registry, device⟩ workspace).1 = .error error) :
    ∃ failures, error = inst.finalizationFailure shapes failures := by
  rcases inst.prepare_cases registry device shapes workspace hstate with
    ⟨_, _, hanswer⟩ | hspecializes
  · rw [hanswer] at h
    cases h
  · generalize inst.prepare shapes ⟨registry, device⟩ workspace = answer at h hspecializes
    obtain ⟨result, inst', workspace'⟩ := answer
    obtain rfl : result = .error error := h
    cases hspecializes with
    | changed hchanges =>
      cases hchanges with
      | failed _ _ _ _ hwhy =>
        cases hwhy with
        | unmatched hnone =>
          rw [hcandidates] at hnone
          cases hnone
        | exhausted failures => exact ⟨failures, rfl⟩

end PrimitiveInstance

end TensorEngine
