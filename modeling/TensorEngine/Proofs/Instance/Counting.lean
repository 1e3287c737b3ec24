import TensorEngine.Proofs.Instance.Specializing
import Mathlib.Data.Finset.Card
import Mathlib.Data.Finset.Dedup

/-!
# What an instance counts

The counts of an instance are those of the list of its successful preparations.  A preparation that
finds the instance ready for its extents counts nothing.  Any other one takes a form from the cache
or makes one, and is a respecialization unless it is the first.  A preparation that fails leaves an
instance that has failed, with the counts as they were.
-/

namespace TensorEngine

variable {ι ω : Type}

/-! ## Changes along a list -/

/-- The number of items that differ from the one in front of them. -/
def changes {α : Type} [DecidableEq α] : List α → Nat
  | first :: second :: rest =>
    (if second = first then 0 else 1) + changes (second :: rest)
  | _ => 0

section

variable {α : Type} [DecidableEq α] {items : List α} {first last item : α}

/-- One more item is a change when it differs from the last one. -/
theorem changes_concat (hlast : items.getLast? = some last) :
    changes (items ++ [item]) = changes items + if item = last then 0 else 1 := by
  induction items with
  | nil => cases hlast
  | cons first rest ih =>
    cases rest with
    | nil =>
      rw [List.getLast?_singleton, Option.some.injEq] at hlast
      subst hlast
      simp only [List.cons_append, List.nil_append, changes, Nat.add_zero, Nat.zero_add]
    | cons second rest =>
      rw [List.getLast?_cons_cons] at hlast
      simp only [List.cons_append, changes] at ih ⊢
      rw [ih hlast, Nat.add_assoc]

end

/-! ## Preparations -/

/-- A preparation that succeeded. -/
structure Preparation where
  shapes : ConcreteShapes
  /-- Whether the instance has another descriptor than before. -/
  switched : Bool
  /-- Whether the implementation was then run with success. -/
  dispatched : Bool
deriving DecidableEq, Repr, Inhabited

namespace PrimitiveInstance

variable {inst inst' : PrimitiveInstance ι} {shapes : ConcreteShapes} {workspace : Workspace ι ω}
  {entry : FinalizedImplementation ι} {prepared : List Preparation} {slot : Nat}
  {switched : Bool}

/-- The counts of an instance are those of its preparations. -/
structure Counts (inst : PrimitiveInstance ι) (prepared : List Preparation) : Prop where
  /-- Every change to other extents than those of the preparation before is counted. -/
  respecializations_eq : inst.stats.respecializations = changes (prepared.map Preparation.shapes)
  /-- A form is acquired by the first preparation and by every change. -/
  acquisitions_eq : inst.stats.finalizations + inst.stats.cacheHits =
    inst.stats.respecializations + if prepared = [] then 0 else 1
  /-- Every change of the descriptor is counted. -/
  reselections_eq : inst.stats.reselections = prepared.countP Preparation.switched
  executions_eq : inst.stats.executions = prepared.countP Preparation.dispatched

/-- The counts are right, and the form of an instance that is ready is for the extents of the last
preparation. -/
structure Tallies (inst : PrimitiveInstance ι) (prepared : List Preparation) : Prop where
  counts : inst.Counts prepared
  fresh : inst.state = .bound → prepared = []
  last : inst.state = .ready → ∃ form preparation, inst.form = some form ∧
    prepared.getLast? = some preparation ∧ form.shapes = preparation.shapes

/-- What is counted plays no part for an instance that has failed. -/
theorem Counts.tallies_of_failed (h : inst.Counts prepared) (hstate : inst.state = .failed) :
    inst.Tallies prepared :=
  ⟨h, fun hbound ↦ absurd (hstate.symm.trans hbound) nofun,
    fun hready ↦ absurd (hstate.symm.trans hready) nofun⟩

theorem Counts.of_stats_eq (h : inst.Counts prepared) (hstats : inst'.stats = inst.stats) :
    inst'.Counts prepared :=
  ⟨hstats ▸ h.respecializations_eq, hstats ▸ h.acquisitions_eq, hstats ▸ h.reselections_eq,
    hstats ▸ h.executions_eq⟩

/-- Slots are not counted. -/
theorem Tallies.attachSlots (h : inst.Tallies prepared) (inputSlots : List Nat) (outputSlot : Nat) :
    (inst.attachSlots inputSlots outputSlot).Tallies prepared :=
  ⟨h.counts.of_stats_eq rfl, h.fresh, h.last⟩

/-! ## Taking over a form -/

@[simp] theorem descriptor?_adopt : (inst.adopt entry).descriptor? = some entry.bound.descriptor :=
  rfl

/-- A form that is taken over counts as a reselection when the descriptor changes. -/
theorem reselections_adopt (hbound : inst.bound.isSome = true) :
    (inst.adopt entry).stats.reselections = inst.stats.reselections +
      if (inst.adopt entry).descriptor? ≠ inst.descriptor? then 1 else 0 := by
  rw [descriptor?_adopt]
  simp only [adopt, hbound, Bool.true_and, decide_eq_true_eq, ne_comm]

variable [Implementation ι ω]

/-- Whether a form in the cache may be taken: while the bound implementation takes the extents, only
its own forms are. -/
def accepts (inst : PrimitiveInstance ι) (shapes : ConcreteShapes)
    (entry : FinalizedImplementation ι) : Bool :=
  !inst.boundSupports shapes || inst.descriptor? = some entry.bound.descriptor

/-- What the cache answers to an instance that needs a form. -/
def cached (inst : PrimitiveInstance ι) (shapes : ConcreteShapes) (workspace : Workspace ι ω) :
    Option (FinalizedImplementation ι) × Workspace ι ω :=
  workspace.cached (inst.signature, shapes) (inst.accepts shapes)

/-- How an instance acquires a form: from the cache; or, when that has none that may be taken, by
making one, which is then kept; or not at all. -/
inductive Acquires {α : Type} (inst : PrimitiveInstance ι) (shapes : ConcreteShapes)
    (workspace : Workspace ι ω) :
    Except RuntimeError α × PrimitiveInstance ι × Workspace ι ω → Prop
  | reused {a : α} {entry : FinalizedImplementation ι} {workspace' : Workspace ι ω}
      (hcached : inst.cached shapes workspace = (some entry, workspace')) :
      Acquires inst shapes workspace (.ok a, inst.reuse entry, workspace')
  | installed {a : α} {entry : FinalizedImplementation ι} {workspace' : Workspace ι ω}
      (hmissed : (inst.cached shapes workspace).1 = none)
      (hcache : workspace'.cache = (inst.cached shapes workspace).2.cache.map
        (·.put (inst.signature, entry.form.shapes) entry)) :
      Acquires inst shapes workspace (.ok a, inst.install entry, workspace')
  | failed {error : RuntimeError} {inst' : PrimitiveInstance ι} {workspace' : Workspace ι ω}
      (hstate : inst'.state = .failed) (hstats : inst'.stats = inst.stats)
      (hcache : workspace'.cache = (inst.cached shapes workspace).2.cache) :
      Acquires inst shapes workspace (.error error, inst', workspace')

/-- How a change over to another implementation ends, when the cache had no form. -/
theorem acquires_reselect {before : PrimitiveInstance ι} {start : Workspace ι ω}
    (context : SpecializeContext ι) (inst : PrimitiveInstance ι) (failures : List String)
    (workspace : Workspace ι ω) (hmissed : (before.cached shapes start).1 = none)
    (hcache : workspace.cache = (before.cached shapes start).2.cache)
    (hinstall : ∀ entry, inst.install entry = before.install entry)
    (hsame : before.SamePlace inst) (hstats : inst.stats = before.stats) :
    before.Acquires shapes start (inst.reselect shapes context failures workspace) := by
  unfold reselect
  split
  · exact .failed rfl hstats hcache
  · simp only
    generalize firstFinalizing context.registry inst shapes _ workspace.environment = answer
    obtain ⟨_ | entry, more, env⟩ := answer
    · exact .failed rfl hstats hcache
    · simp only [hinstall]
      refine .installed hmissed ?_
      simp only [Workspace.keep, Workspace.withEnvironment, hcache, hsame.signature_eq]

theorem acquires_finalizeOrReselect {start : Workspace ι ω} (context : SpecializeContext ι)
    (inst : PrimitiveInstance ι) (workspace : Workspace ι ω)
    (hmissed : (inst.cached shapes start).1 = none)
    (hcache : workspace.cache = (inst.cached shapes start).2.cache) :
    inst.Acquires shapes start (inst.finalizeOrReselect shapes context workspace) := by
  unfold finalizeOrReselect
  cases hbound : inst.bound with
  | none =>
    exact acquires_reselect context inst [] workspace hmissed hcache (fun _ ↦ rfl) (.refl inst) rfl
  | some bound =>
    simp only
    split
    · generalize Implementation.finalize bound.implementation shapes inst.node.op
        workspace.environment = answer
      obtain ⟨error | form, implementation, env⟩ := answer
      · refine acquires_reselect context { inst with bound := some { bound with implementation } } _
          (workspace.withEnvironment env) hmissed hcache (fun entry ↦ ?_) ⟨rfl, rfl, rfl, rfl⟩ rfl
        simp only [install, adopt, descriptor?, hbound, Option.isSome_some, Option.map_some]
        rfl
      · refine .installed hmissed ?_
        simp only [Workspace.keep, Workspace.withEnvironment, hcache]
    · exact acquires_reselect context inst [] workspace hmissed hcache (fun _ ↦ rfl)
        (.refl inst) rfl

theorem acquires_specialize (context : SpecializeContext ι) (inst : PrimitiveInstance ι)
    (shapes : ConcreteShapes) (workspace : Workspace ι ω) :
    inst.Acquires shapes workspace (inst.specialize shapes context workspace) := by
  simp only [specialize]
  generalize hanswer : workspace.cached (inst.signature, shapes) _ = answer
  have hcached : inst.cached shapes workspace = answer := hanswer
  obtain ⟨hit, workspace'⟩ := answer
  cases hit with
  | some entry => exact .reused hcached
  | none =>
    have hcache : (workspace'.scope Profile.finalizeScope).cache =
        (inst.cached shapes workspace).2.cache := by
      rw [hcached]
      rfl
    exact acquires_finalizeOrReselect context inst (workspace'.scope Profile.finalizeScope)
      (congrArg Prod.fst hcached) hcache

/-- The state of an instance plays no part in how it acquires a form. -/
theorem Acquires.of_withState {α : Type} {state : InstanceState}
    {answer : Except RuntimeError α × PrimitiveInstance ι × Workspace ι ω}
    (h : (inst.withState state).Acquires shapes workspace answer) :
    inst.Acquires shapes workspace answer := by
  cases h with
  | reused hcached => exact @Acquires.reused _ _ _ _ inst _ _ _ _ _ hcached
  | installed hmissed hcache => exact @Acquires.installed _ _ _ _ inst _ _ _ _ _ hmissed hcache
  | failed hstate hstats hcache => exact .failed hstate hstats hcache

/-! ## Preparing -/

/-- The instance after a change to other extents. -/
def respecialized (inst : PrimitiveInstance ι) : PrimitiveInstance ι :=
  { inst with stats := { inst.stats with respecializations := inst.stats.respecializations + 1 } }

@[simp] theorem stats_respecialized : inst.respecialized.stats =
    { inst.stats with respecializations := inst.stats.respecializations + 1 } := rfl

@[simp] theorem descriptor?_respecialized : inst.respecialized.descriptor? = inst.descriptor? := rfl

/-- How the preparation of an instance goes that is bound or ready: nothing is to be done, a form is
acquired for the first time or for other extents, or none is. -/
inductive Readies (inst : PrimitiveInstance ι) (shapes : ConcreteShapes)
    (workspace : Workspace ι ω) :
    Except RuntimeError Transition × PrimitiveInstance ι × Workspace ι ω → Prop
  | unchanged (hstate : inst.state = .ready) (hshapes : inst.needsReshape shapes = false) :
      Readies inst shapes workspace (.ok .unchanged, inst, workspace)
  | first {a : Bool} {inst' : PrimitiveInstance ι} {workspace' : Workspace ι ω}
      (hstate : inst.state = .bound)
      (h : inst.Acquires shapes workspace (Except.ok a, inst', workspace')) :
      Readies inst shapes workspace (.ok .finalized, inst', workspace')
  | again {reselected : Bool} {inst' : PrimitiveInstance ι} {workspace' : Workspace ι ω}
      (hstate : inst.state = .ready) (hshapes : inst.needsReshape shapes = true)
      (h : inst.Acquires shapes workspace (Except.ok reselected, inst', workspace')) :
      Readies inst shapes workspace
        (.ok (.respecialized reselected), inst'.respecialized, workspace')
  | failed {error : RuntimeError} {inst' : PrimitiveInstance ι} {workspace' : Workspace ι ω}
      (h : inst.Acquires shapes workspace
        ((.error error : Except RuntimeError Bool), inst', workspace')) :
      Readies inst shapes workspace (.error error, inst', workspace')

theorem readies_prepare (hstate : inst.state = .bound ∨ inst.state = .ready)
    (shapes : ConcreteShapes) (context : SpecializeContext ι) (workspace : Workspace ι ω) :
    inst.Readies shapes workspace (inst.prepare shapes context workspace) := by
  unfold prepare
  rcases hstate with hstate | hstate
  · have hacquires := acquires_specialize context inst shapes workspace
    simp only [hstate]
    generalize inst.specialize shapes context workspace = answer at hacquires
    obtain ⟨error | reselected, inst', workspace'⟩ := answer
    · exact .failed hacquires
    · exact .first hstate hacquires
  · simp only [hstate]
    cases hshapes : inst.needsReshape shapes with
    | false =>
      simp only [decide_true, Bool.not_false, Bool.and_true, if_true]
      exact .unchanged hstate hshapes
    | true =>
      have hacquires := (acquires_specialize context (inst.withState .stale) shapes
        workspace).of_withState
      simp only [decide_true, Bool.not_true, Bool.and_false, Bool.false_eq_true, if_false]
      generalize (inst.withState .stale).specialize shapes context workspace = answer
        at hacquires
      obtain ⟨error | reselected, inst', workspace'⟩ := answer
      · exact .failed hacquires
      · exact .again hstate hshapes hacquires

/-! ## Tallies -/

/-- What an instance counts when it has acquired a form. -/
structure Acquired (inst inst' : PrimitiveInstance ι) : Prop where
  state_eq : inst'.state = .ready
  acquisitions_eq : inst'.stats.finalizations + inst'.stats.cacheHits =
    inst.stats.finalizations + inst.stats.cacheHits + 1
  respecializations_eq : inst'.stats.respecializations = inst.stats.respecializations
  reselections_eq : inst'.stats.reselections =
    inst.stats.reselections + if inst'.descriptor? ≠ inst.descriptor? then 1 else 0
  executions_eq : inst'.stats.executions = inst.stats.executions

theorem Acquires.acquired {α : Type} {a : α} {workspace' : Workspace ι ω}
    (h : inst.Acquires shapes workspace (.ok a, inst', workspace'))
    (hbound : inst.bound.isSome = true) : inst.Acquired inst' := by
  cases h with
  | reused => exact ⟨rfl, (Nat.add_assoc _ _ 1).symm, rfl, reselections_adopt hbound, rfl⟩
  | installed => exact ⟨rfl, Nat.add_right_comm _ 1 _, rfl, reselections_adopt hbound, rfl⟩

/-- A preparation that succeeds is counted. -/
theorem Tallies.readies {transition : Transition} {workspace' : Workspace ι ω}
    (h : inst.Tallies prepared)
    (hreadies : inst.Readies shapes workspace (.ok transition, inst', workspace'))
    (hbound : inst.bound.isSome = true)
    (hform : ∃ form, inst'.form = some form ∧ form.shapes = shapes) :
    inst'.Tallies (prepared ++ [⟨shapes, inst'.descriptor? ≠ inst.descriptor?, false⟩]) := by
  obtain ⟨form, hform, hshapes⟩ := hform
  obtain ⟨hrespecializations, hacquisitions, hreselections, hexecutions⟩ := h.counts
  have hends : inst'.state = .ready → inst'.Counts
      (prepared ++ [⟨shapes, inst'.descriptor? ≠ inst.descriptor?, false⟩]) →
      inst'.Tallies (prepared ++ [⟨shapes, inst'.descriptor? ≠ inst.descriptor?, false⟩]) :=
    fun hready hcounts ↦ ⟨hcounts, fun hstate ↦ absurd (hready.symm.trans hstate) nofun,
      fun _ ↦ ⟨form, _, hform, List.getLast?_concat, hshapes⟩⟩
  cases hreadies with
  | unchanged hstate _ =>
    obtain ⟨form', last, hform', hlast, hlastShapes⟩ := h.last hstate
    obtain rfl := Option.some.inj (hform'.symm.trans hform)
    have hne : prepared ≠ [] := fun hnil ↦ by simp [hnil] at hlast
    have hlast' : (prepared.map Preparation.shapes).getLast? = some shapes := by
      rw [List.getLast?_map, hlast, Option.map_some, ← hlastShapes, hshapes]
    refine hends hstate ⟨?_, ?_, ?_, ?_⟩
    · rw [List.map_append, List.map_singleton, changes_concat hlast', if_pos rfl, Nat.add_zero,
        hrespecializations]
    · simpa [hne] using hacquisitions
    · simpa using hreselections
    · simpa using hexecutions
  | first hstate hacquires =>
    obtain ⟨hready, hacquired, hsame, hswitched, hran⟩ := hacquires.acquired hbound
    obtain rfl := h.fresh hstate
    refine hends hready ⟨?_, ?_, ?_, ?_⟩
    · simpa [hsame, changes] using hrespecializations
    · simp only [if_true, Nat.add_zero] at hacquisitions
      simp [hacquired, hacquisitions, hsame]
    · simp [hswitched, hreselections, List.countP_singleton]
    · simp [hran, hexecutions]
  | @again _ acquired _ hstate hneeds hacquires =>
    obtain ⟨hready, hacquired, hsame, hswitched, hran⟩ := hacquires.acquired hbound
    obtain ⟨form', last, hform', hlast, hlastShapes⟩ := h.last hstate
    have hne : prepared ≠ [] := fun hnil ↦ by simp [hnil] at hlast
    have hlast' : (prepared.map Preparation.shapes).getLast? = some form'.shapes := by
      rw [List.getLast?_map, hlast, Option.map_some, hlastShapes]
    have hchanged : shapes ≠ form'.shapes := by
      rintro rfl
      simp [needsReshape, hform'] at hneeds
    refine hends hready ⟨?_, ?_, ?_, ?_⟩
    · rw [List.map_append, List.map_singleton, changes_concat hlast', if_neg hchanged,
        ← hrespecializations, ← hsame]
      rfl
    · simp only [hne, if_false] at hacquisitions
      simp only [stats_respecialized, hacquired, hacquisitions, hsame, List.append_eq_nil_iff, hne,
        false_and, if_false]
    · by_cases hdescriptor : acquired.descriptor? = inst.descriptor? <;>
        simp [hswitched, hreselections, hdescriptor, List.countP_append]
    · simp [hran, hexecutions]

/-- A preparation that fails is not counted. -/
theorem Tallies.unprepared {error : RuntimeError} {workspace' : Workspace ι ω}
    (h : inst.Tallies prepared)
    (hreadies : inst.Readies shapes workspace (.error error, inst', workspace')) :
    inst'.markFailed.Tallies prepared := by
  cases hreadies with
  | failed hacquires =>
    cases hacquires with
    | failed _ hstats =>
      have hcounts : inst'.markFailed.Counts prepared := h.counts.of_stats_eq hstats
      exact hcounts.tallies_of_failed rfl

end PrimitiveInstance

/-! ## Keys -/

namespace ImplementationCache

variable {cache : ImplementationCache ι} {key : CacheKey} {entry : FinalizedImplementation ι}

/-- The keys under which something is cached. -/
def keys (cache : ImplementationCache ι) : List CacheKey := cache.entries.map Prod.fst

theorem mem_keys_put (hcapacity : 0 < cache.capacity) : key ∈ (cache.put key entry).keys := by
  obtain ⟨n, hn⟩ := Nat.exists_eq_add_one_of_ne_zero (Nat.pos_iff_ne_zero.1 hcapacity)
  simp only [keys, put, hn, List.take_succ_cons, List.map_cons, List.mem_cons_self]

theorem exists_find?_of_mem_keys (h : key ∈ cache.keys) :
    ∃ entry, cache.find? key = some entry := by
  rw [← Option.isSome_iff_exists, find?, List.lookup_isSome_iff]
  obtain ⟨⟨_, entry⟩, hmem, rfl⟩ := List.mem_map.1 h
  exact ⟨_, hmem, by simp⟩

end ImplementationCache

namespace Workspace

/-- The keys under which something is cached. -/
def keys (workspace : Workspace ι ω) : List CacheKey :=
  (workspace.cache.map ImplementationCache.keys).getD []

theorem keys_eq {workspace : Workspace ι ω} {cache : ImplementationCache ι}
    (h : workspace.cache = some cache) : workspace.keys = cache.keys := by
  rw [keys, h, Option.map_some, Option.getD_some]

end Workspace

namespace PrimitiveInstance

variable [Implementation ι ω] {inst inst' : PrimitiveInstance ι} {shapes : ConcreteShapes}
  {workspace workspace' : Workspace ι ω} {entry : FinalizedImplementation ι}
  {cache : ImplementationCache ι} {prepared : List Preparation}

/-- Without a cache nothing is taken from it. -/
theorem cached_of_cache_eq_none (inst : PrimitiveInstance ι) (shapes : ConcreteShapes)
    (h : workspace.cache = none) :
    inst.cached shapes workspace = (none, workspace) := by
  rw [cached, Workspace.cached, h]

theorem Acquires.uncached {α : Type} {result : Except RuntimeError α}
    (h : inst.Acquires shapes workspace (result, inst', workspace'))
    (hcache : workspace.cache = none) :
    workspace'.cache = none ∧ inst'.stats.cacheHits = inst.stats.cacheHits := by
  have hnone := inst.cached_of_cache_eq_none shapes hcache
  cases h with
  | reused hcached =>
    rw [hnone] at hcached
    cases (Prod.mk.inj hcached).1
  | installed _ hkept =>
    rw [hnone, hcache] at hkept
    exact ⟨hkept, rfl⟩
  | failed _ hstats hkept =>
    rw [hnone, hcache] at hkept
    exact ⟨hkept, congrArg InstanceStats.cacheHits hstats⟩

theorem Readies.uncached {result : Except RuntimeError Transition}
    (h : inst.Readies shapes workspace (result, inst', workspace'))
    (hcache : workspace.cache = none) :
    workspace'.cache = none ∧ inst'.stats.cacheHits = inst.stats.cacheHits := by
  cases h with
  | unchanged => exact ⟨hcache, rfl⟩
  | first _ h => exact h.uncached hcache
  | again _ _ h => exact stats_respecialized ▸ h.uncached hcache
  | failed h => exact h.uncached hcache

/-- Looking for a form keeps a cache of the same capacity.  Nothing that may be taken is found only
when there is nothing under the key, or something that may not be taken; and what is found is still
there afterwards. -/
theorem cached_spec (inst : PrimitiveInstance ι) (shapes : ConcreteShapes)
    (hcache : workspace.cache = some cache) :
    ∃ cache', (inst.cached shapes workspace).2.cache = some cache' ∧
      cache'.capacity = cache.capacity ∧
      ((inst.cached shapes workspace).1 = none → (inst.signature, shapes) ∈ cache.keys →
        ∃ entry, ((inst.signature, shapes), entry) ∈ cache.entries ∧
          inst.accepts shapes entry = false) ∧
      (0 < cache.capacity → (inst.cached shapes workspace).1.isSome = true →
        (inst.signature, shapes) ∈ cache'.keys) := by
  unfold cached Workspace.cached
  simp only [hcache]
  unfold ImplementationCache.get
  cases hfind : cache.find? (inst.signature, shapes) with
  | none =>
    refine ⟨cache, rfl, rfl, fun _ hmem ↦ ?_, fun _ hsome ↦ ?_⟩
    · obtain ⟨entry, hentry⟩ := ImplementationCache.exists_find?_of_mem_keys hmem
      rw [hfind] at hentry
      cases hentry
    · cases hsome
  | some entry =>
    have hmem := ImplementationCache.mem_entries_of_find? hfind
    simp only [Option.filter_some]
    cases haccepts : inst.accepts shapes entry with
    | false =>
      exact ⟨_, rfl, rfl, fun _ _ ↦ ⟨entry, hmem, haccepts⟩, fun _ hsome ↦ nomatch hsome⟩
    | true =>
      exact ⟨_, rfl, rfl, nofun, fun hcapacity _ ↦ ImplementationCache.mem_keys_put hcapacity⟩

/-- A form that was acquired is cached for its extents. -/
theorem Acquires.mem_keys {α : Type} {a : α}
    (h : inst.Acquires shapes workspace (Except.ok a, inst', workspace'))
    (hcache : workspace.cache = some cache) (hcapacity : 0 < cache.capacity)
    (hform : ∃ form, inst'.form = some form ∧ form.shapes = shapes) :
    ∃ cache', workspace'.cache = some cache' ∧ cache'.capacity = cache.capacity ∧
      (inst.signature, shapes) ∈ cache'.keys := by
  obtain ⟨cache', hcache', hsame, _, hfound⟩ := inst.cached_spec shapes hcache
  cases h with
  | reused hcached =>
    rw [hcached] at hcache' hfound
    exact ⟨cache', hcache', hsame, hfound hcapacity rfl⟩
  | @installed _ entry _ _ hput =>
    rw [hcache', Option.map_some] at hput
    obtain ⟨form, hsome, rfl⟩ := hform
    obtain rfl : entry.form = form := Option.some.inj hsome
    exact ⟨_, hput, hsame, ImplementationCache.mem_keys_put (hsame ▸ hcapacity)⟩

/-- What a preparation that succeeds does to the cache: the extents are cached for the instance,
unless it was prepared for them before. -/
theorem Readies.mem_keys {transition : Transition}
    (h : inst.Readies shapes workspace (.ok transition, inst', workspace'))
    (hcache : workspace.cache = some cache) (hcapacity : 0 < cache.capacity)
    (hform : ∃ form, inst'.form = some form ∧ form.shapes = shapes)
    (htallies : inst.Tallies prepared) :
    ∃ cache', workspace'.cache = some cache' ∧ cache'.capacity = cache.capacity ∧
      ((∃ preparation ∈ prepared, preparation.shapes = shapes) ∨
        (inst.signature, shapes) ∈ cache'.keys) := by
  cases h with
  | unchanged hstate hshapes =>
    obtain ⟨form, last, hsome, hlast, hlastShapes⟩ := htallies.last hstate
    rw [needsReshape, hsome, Option.map_some, decide_eq_false_iff_not, not_not,
      Option.some.injEq, hlastShapes] at hshapes
    exact ⟨cache, hcache, rfl, .inl ⟨last, List.mem_of_getLast? hlast, hshapes⟩⟩
  | first _ hacquires | again _ _ hacquires =>
    obtain ⟨cache', hcache', hsame, hmem⟩ := hacquires.mem_keys hcache hcapacity hform
    exact ⟨cache', hcache', hsame, .inr hmem⟩

/-- A preparation makes a form only when the cache has none that may be taken. -/
theorem Readies.finalizations_cases {transition : Transition}
    (h : inst.Readies shapes workspace (.ok transition, inst', workspace')) :
    inst'.stats.finalizations = inst.stats.finalizations ∨
      inst'.stats.finalizations = inst.stats.finalizations + 1 ∧
        (inst.cached shapes workspace).1 = none := by
  have hacquires : ∀ {α : Type} {a : α} {acquired : PrimitiveInstance ι},
      inst.Acquires shapes workspace (Except.ok a, acquired, workspace') →
      acquired.stats.finalizations = inst.stats.finalizations ∨
        acquired.stats.finalizations = inst.stats.finalizations + 1 ∧
          (inst.cached shapes workspace).1 = none := by
    intro α a acquired h
    cases h with
    | reused => exact .inl rfl
    | installed hmissed => exact .inr ⟨rfl, hmissed⟩
  cases h with
  | unchanged => exact .inl rfl
  | first _ h => exact hacquires h
  | again _ _ h => exact stats_respecialized ▸ hacquires h

/-- While all extents are cached that an instance was prepared for, and what is cached may be taken,
forms are made for new extents only. -/
theorem Readies.finalizations_le {transition : Transition}
    (h : inst.Readies shapes workspace (.ok transition, inst', workspace'))
    (hcache : workspace.cache = some cache)
    (haccepts : ∀ entry, ((inst.signature, shapes), entry) ∈ cache.entries →
      inst.accepts shapes entry = true)
    (hkeys : ∀ preparation ∈ prepared, (inst.signature, preparation.shapes) ∈ cache.keys)
    (hle : inst.stats.finalizations ≤ (prepared.map Preparation.shapes).toFinset.card) :
    inst'.stats.finalizations ≤ (prepared.map Preparation.shapes ++ [shapes]).toFinset.card := by
  rw [List.toFinset_append]
  rcases h.finalizations_cases with hsame | ⟨hmade, hmissed⟩
  · rw [hsame]
    exact Nat.le_trans hle (Finset.card_le_card Finset.subset_union_left)
  · have hnew : shapes ∉ prepared.map Preparation.shapes := by
      intro hold
      obtain ⟨preparation, hmem, rfl⟩ := List.mem_map.1 hold
      obtain ⟨_, _, _, hnone, _⟩ := inst.cached_spec preparation.shapes hcache
      obtain ⟨entry, hentry, hrefused⟩ := hnone hmissed (hkeys preparation hmem)
      rw [haccepts entry hentry] at hrefused
      cases hrefused
    rw [hmade, Finset.card_union_of_disjoint (by simpa using hnew)]
    exact Nat.succ_le_succ hle

/-- A preparation that fails makes no form and keeps a cache of the same capacity. -/
theorem Readies.of_error {error : RuntimeError}
    (h : inst.Readies shapes workspace (.error error, inst', workspace'))
    (hcache : workspace.cache = some cache) :
    inst'.stats = inst.stats ∧
      ∃ cache', workspace'.cache = some cache' ∧ cache'.capacity = cache.capacity := by
  obtain ⟨cache', hcache', hsame, _⟩ := inst.cached_spec shapes hcache
  cases h with
  | failed h =>
    cases h with
    | failed _ hstats hkept => exact ⟨hstats, cache', hkept.trans hcache', hsame⟩

end PrimitiveInstance

end TensorEngine
