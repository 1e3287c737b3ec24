import TensorEngine.Proofs.Instance.Specializing
import TensorEngine.Proofs.Registry.Ranking

/-!
# The search for an implementation

What is bound for a node is the first candidate that takes the declared layouts; what takes its
place is the first of the others that takes the extents and can be finalized for them.  When new
implementations behave alike whenever they are made for the same operation and results, both
searches find the best candidate, whether or not a cache helps: the cache only holds forms of
candidates that work.
-/

namespace TensorEngine

variable {ι ω α : Type} [Implementation ι ω] {registry : Registry ι} {device : DeviceCaps}
  {node other : Node} {declared : List Layout} {shapes : ConcreteShapes}
  {descriptor : Descriptor ι}

/-! ## New implementations -/

namespace Descriptor

/-- A new implementation for the node takes the layouts. -/
def Takes (descriptor : Descriptor ι) (node : Node) (inputs outputs : List Layout) : Prop :=
  Implementation.supports (descriptor.instantiate node) inputs outputs = true

/-- A new implementation for the node can be finalized for the extents, in every environment. -/
def Finalizes (descriptor : Descriptor ι) (node : Node) (shapes : ConcreteShapes) : Prop :=
  ∀ env : ω,
    (Implementation.finalize (descriptor.instantiate node) shapes node.op env).1.isOk = true

/-- A new implementation for the node takes the extents and can be finalized for them. -/
structure Viable (descriptor : Descriptor ι) (node : Node) (declared : List Layout)
    (shapes : ConcreteShapes) : Prop where
  takes : descriptor.Takes node (ConcreteShapes.pin declared shapes.inputs)
    (ConcreteShapes.pin node.outputs shapes.outputs)
  finalizes : descriptor.Finalizes node shapes

/-- New implementations for nodes of one operation and with the same results take the same layouts,
and can be finalized for the same extents, whatever has happened before. -/
structure Deterministic (descriptor : Descriptor ι) : Prop where
  supports_eq {node other : Node} (hop : node.op = other.op) (hout : node.outputs = other.outputs)
    (inputs outputs : List Layout) :
    Implementation.supports (descriptor.instantiate node) inputs outputs =
      Implementation.supports (descriptor.instantiate other) inputs outputs
  isOk_finalize_eq {node other : Node} (hop : node.op = other.op)
    (hout : node.outputs = other.outputs) (shapes : ConcreteShapes) (env env' : ω) :
    (Implementation.finalize (descriptor.instantiate node) shapes node.op env).1.isOk =
      (Implementation.finalize (descriptor.instantiate other) shapes other.op env').1.isOk

/-- What could be finalized once can always be finalized. -/
theorem Deterministic.finalizes (h : descriptor.Deterministic) (env : ω)
    (hok : (Implementation.finalize (descriptor.instantiate node) shapes node.op env).1.isOk =
      true) : descriptor.Finalizes node shapes :=
  fun env' ↦ (h.isOk_finalize_eq rfl rfl shapes env' env).trans hok

/-- What is viable for one node is viable for all nodes of its operation and results. -/
theorem Deterministic.viable (h : descriptor.Deterministic)
    (hviable : descriptor.Viable node declared shapes) (hop : node.op = other.op)
    (hout : node.outputs = other.outputs) : descriptor.Viable other declared shapes := by
  refine ⟨?_, fun env ↦ (h.isOk_finalize_eq hop hout shapes env env).symm.trans
    (hviable.finalizes env)⟩
  rw [Takes, ← h.supports_eq hop hout, ← hout]
  exact hviable.takes

end Descriptor

/-- All descriptors of the registry make implementations that are alike. -/
def Registry.Deterministic (registry : Registry ι) : Prop :=
  ∀ descriptor ∈ registry.descriptors, descriptor.Deterministic

theorem Registry.Deterministic.of_descriptor? (h : registry.Deterministic) {id : DescriptorId}
    (hid : registry.descriptor? id = some descriptor) : descriptor.Deterministic :=
  h descriptor (List.mem_of_getElem? hid)

def BoundImplementation.selection (bound : BoundImplementation ι) : Selection :=
  ⟨bound.descriptor, bound.requiresConversion⟩

/-! ## The cache -/

namespace Workspace

variable {workspace workspace' : Workspace ι ω}
  {new new' : CacheKey → FinalizedImplementation ι → Prop}

omit [Implementation ι ω] in
theorem Adds.mono (h : workspace.Adds workspace' new)
    (hnew : ∀ key entry, new key entry → new' key entry) : workspace.Adds workspace' new' := by
  refine ⟨h.isSome_eq, fun cache' hcache' ↦ ?_⟩
  obtain ⟨cache, hcache, hentries⟩ := h.entries cache' hcache'
  exact ⟨cache, hcache, fun key entry hmem ↦ (hentries key entry hmem).imp_right (hnew key entry)⟩

omit [Implementation ι ω] in
/-- Only an acceptable form is answered. -/
theorem acceptable_of_cached (workspace : Workspace ι ω) (key : CacheKey)
    (acceptable : FinalizedImplementation ι → Bool) (entry : FinalizedImplementation ι)
    (h : (workspace.cached key acceptable).1 = some entry) : acceptable entry = true := by
  cases hcache : workspace.cache with
  | none =>
    simp only [cached, hcache] at h
    cases h
  | some cache =>
    simp only [cached, hcache] at h
    generalize cache.get key = answer at h
    cases hfilter : answer.1.filter acceptable with
    | none =>
      simp only [hfilter] at h
      cases h
    | some hit =>
      simp only [hfilter] at h
      obtain rfl := Option.some.inj h
      exact (Option.filter_eq_some_iff.1 hfilter).2

end Workspace

/-! ## The two searches -/

namespace PrimitiveInstance

/-- What is bound at first is a new implementation of the first candidate that takes the layouts. -/
theorem finds_firstSupporting (registry : Registry ι) (node : Node) (inputs outputs : List Layout)
    (selections : List Selection) :
    Finds (registry.Meets (·.Takes node inputs outputs)) BoundImplementation.selection selections
      (firstSupporting registry node inputs outputs selections) := by
  induction selections with
  | nil => exact .nothing nofun
  | cons selection rest ih =>
    rw [firstSupporting, List.findSome?_cons]
    cases hdescriptor : registry.descriptor? selection.descriptor with
    | none => exact Finds.later (Registry.not_meets hdescriptor) ih
    | some descriptor =>
      have hmeets := @Registry.meets_iff ι registry selection descriptor
        (·.Takes node inputs outputs) hdescriptor
      cases hsupports : Implementation.supports (descriptor.instantiate node) inputs outputs with
      | true =>
        simp only [Option.bind_eq_bind, Option.bind_some, hsupports, if_true]
        exact .found (.here (hmeets.2 hsupports))
      | false =>
        simp only [Option.bind_eq_bind, Option.bind_some, hsupports, Bool.false_eq_true, if_false]
        refine Finds.later (fun h ↦ ?_) ih
        have htakes : Implementation.supports (descriptor.instantiate node) inputs outputs = true :=
          hmeets.1 h
        rw [hsupports] at htakes
        cases htakes

/-- What takes its place is the first candidate that takes the extents and can be finalized. -/
theorem finds_firstFinalizing (hdeterministic : registry.Deterministic)
    (inst : PrimitiveInstance ι) (shapes : ConcreteShapes) (selections : List Selection) :
    ∀ env : ω, Finds (registry.Meets (·.Viable inst.node inst.declaredInputs shapes))
      (·.bound.selection) selections
      (firstFinalizing registry inst shapes selections env).1 := by
  induction selections with
  | nil => exact fun _ ↦ .nothing nofun
  | cons selection rest ih =>
    intro env
    unfold firstFinalizing
    cases hdescriptor : registry.descriptor? selection.descriptor with
    | none => exact Finds.later (Registry.not_meets hdescriptor) (ih env)
    | some descriptor =>
      have hmeets := @Registry.meets_iff ι registry selection descriptor
        (·.Viable inst.node inst.declaredInputs shapes) hdescriptor
      simp only
      split
      · rename_i htakes
        cases hfinalize : Implementation.finalize (descriptor.instantiate inst.node) shapes
          inst.node.op env with
        | mk result answer =>
          obtain ⟨implementation, env'⟩ := answer
          cases result with
          | ok form =>
            refine .found (.here (hmeets.2 ⟨htakes, ?_⟩))
            refine (hdeterministic.of_descriptor? hdescriptor).finalizes env ?_
            rw [hfinalize]
            rfl
          | error error =>
            refine Finds.later (fun h ↦ ?_) (ih env')
            have hok := (hmeets.1 h).finalizes env
            rw [hfinalize] at hok
            cases hok
      · rename_i htakes
        exact Finds.later (fun h ↦ htakes (hmeets.1 h).takes) (ih env)

theorem exists_of_firstSupporting {inputs outputs : List Layout} {selections : List Selection}
    {bound : BoundImplementation ι}
    (h : firstSupporting registry node inputs outputs selections = some bound) :
    ∃ descriptor ∈ registry.descriptor? bound.descriptor,
      bound.implementation = descriptor.instantiate node := by
  obtain ⟨selection, _, hselection⟩ := List.exists_of_findSome?_eq_some h
  simp only [Option.bind_eq_bind, Option.bind_eq_some_iff] at hselection
  obtain ⟨descriptor, hdescriptor, hbound⟩ := hselection
  split at hbound
  · obtain rfl := Option.some.inj hbound
    exact ⟨descriptor, hdescriptor, rfl⟩
  · cases hbound

end PrimitiveInstance

/-! ## Binding and preparing -/

/-- The selection is that of a candidate that takes the extents and can be finalized for them. -/
structure Registry.Suits (registry : Registry ι) (node : Node) (declared : List Layout)
    (device : DeviceCaps) (shapes : ConcreteShapes) (selection : Selection) : Prop where
  mem : selection ∈ registry.selections node declared device
  viable : registry.Meets (·.Viable node declared shapes) selection

/-- Whatever is cached for the extents of a node is a form of a candidate that suits them. -/
def Workspace.Suited (workspace : Workspace ι ω) (registry : Registry ι) (device : DeviceCaps)
    (node : Node) (declared : List Layout) (shapes : ConcreteShapes) : Prop :=
  ∀ cache entry, workspace.cache = some cache →
    ((node.signature declared, shapes), entry) ∈ cache.entries →
    registry.Suits node declared device shapes entry.bound.selection

/-- A new implementation of a candidate for the node. -/
structure Registry.New (registry : Registry ι) (node : Node) (declared : List Layout)
    (device : DeviceCaps) (bound : BoundImplementation ι) : Prop where
  mem : bound.selection ∈ registry.selections node declared device
  implementation_eq : registry.Meets (bound.implementation = ·.instantiate node) bound.selection

namespace PrimitiveInstance

variable {inst : PrimitiveInstance ι} {workspace : Workspace ι ω}

/-- How binding can go: the first candidate that takes the declared layouts is bound, or there is
none. -/
inductive BindsFirst (registry : Registry ι) (device : DeviceCaps) (inst : PrimitiveInstance ι) :
    Except RuntimeError Unit × PrimitiveInstance ι → Prop
  | bound {bound : BoundImplementation ι}
      (hnew : registry.New inst.node inst.declaredInputs device bound)
      (hfirst : First (registry.Meets (·.Takes inst.node inst.declaredInputs inst.node.outputs))
        (registry.selections inst.node inst.declaredInputs device) bound.selection) :
      BindsFirst registry device inst (.ok (), { inst with bound := some bound, state := .bound })
  | unmatched (hnone : ∀ selection ∈ registry.selections inst.node inst.declaredInputs device,
        ¬registry.Meets (·.Takes inst.node inst.declaredInputs inst.node.outputs) selection) :
      BindsFirst registry device inst
        (.error (Registry.incompatible inst.node inst.declaredInputs), inst.markFailed)

theorem bindsFirst_bind (registry : Registry ι) (device : DeviceCaps)
    (inst : PrimitiveInstance ι) : BindsFirst registry device inst (inst.bind registry device) := by
  have hfinds := finds_firstSupporting registry inst.node inst.declaredInputs inst.node.outputs
    (registry.selections inst.node inst.declaredInputs device)
  unfold bind
  simp only
  cases hfound : firstSupporting registry inst.node inst.declaredInputs inst.node.outputs
    (registry.selections inst.node inst.declaredInputs device) with
  | some bound =>
    rw [hfound] at hfinds
    cases hfinds with
    | found hfirst => exact .bound ⟨hfirst.mem, exists_of_firstSupporting hfound⟩ hfirst
  | none =>
    rw [hfound] at hfinds
    cases hfinds with
    | nothing hnone => exact .unmatched hnone

/-- How preparing an instance that was just bound can go.  It ends up with a candidate that works,
and with the first one of them, what was bound in front, if that takes the extents; or no candidate
works. -/
inductive Settles (registry : Registry ι) (device : DeviceCaps) (node : Node)
    (declared : List Layout) (shapes : ConcreteShapes) (selection : Selection)
    (workspace : Workspace ι ω) :
    Except RuntimeError α × PrimitiveInstance ι × Workspace ι ω → Prop
  | settled {a : α} {inst : PrimitiveInstance ι} {workspace' : Workspace ι ω}
      {bound : BoundImplementation ι} (hnode : inst.node = node) (hbound : inst.bound = some bound)
      (hsuits : registry.Suits node declared device shapes bound.selection)
      (hfirst : registry.Meets (·.Takes node (ConcreteShapes.pin declared shapes.inputs)
          (ConcreteShapes.pin node.outputs shapes.outputs)) selection →
        First (registry.Meets (·.Viable node declared shapes))
          (selection :: registry.selections node declared device) bound.selection)
      (hadds : workspace.Adds workspace' fun key new ↦
        key.1 = node.signature declared ∧ new.bound.selection = bound.selection) :
      Settles registry device node declared shapes selection workspace (.ok a, inst, workspace')
  | refused {inst : PrimitiveInstance ι} {workspace' : Workspace ι ω} (reason : String)
      (hnone : ∀ other ∈ registry.selections node declared device,
        ¬registry.Meets (·.Viable node declared shapes) other)
      (hadds : workspace.Adds workspace' fun _ _ ↦ False) :
      Settles registry device node declared shapes selection workspace
        (.error (.finalizationFailure node.id node.kind shapes.all reason), inst, workspace')

/-- A preparation that started after nothing was added. -/
theorem Settles.of_adds {selection : Selection} {middle : Workspace ι ω}
    {answer : Except RuntimeError α × PrimitiveInstance ι × Workspace ι ω}
    (h : Settles registry device node declared shapes selection middle answer)
    (hadds : workspace.Adds middle fun _ _ ↦ False) :
    Settles registry device node declared shapes selection workspace answer := by
  cases h with
  | settled hnode hbound hsuits hfirst hadds' =>
    exact .settled hnode hbound hsuits hfirst (hadds.trans hadds')
  | refused reason hnone hadds' => exact .refused reason hnone (hadds.trans hadds')

variable {bound : BoundImplementation ι}

/-- Where there are selections, they are the candidates. -/
theorem candidates_eq (h : bound.selection ∈ registry.selections node declared device) :
    registry.candidates node declared device = .ok (registry.selections node declared device) := by
  unfold Registry.candidates
  generalize registry.selections node declared device = selections at h
  cases selections with
  | nil => cases h
  | cons => rfl

/-- What is bound does not work, so the first other candidate that does takes its place. -/
theorem settles_reselect (hdeterministic : registry.Deterministic) (inst : PrimitiveInstance ι)
    (hmem : bound.selection ∈ registry.selections inst.node inst.declaredInputs device)
    (hbound : inst.descriptor? = some bound.descriptor)
    (hnot : ¬registry.Meets (·.Viable inst.node inst.declaredInputs shapes) bound.selection)
    (failures : List String) :
    Settles registry device inst.node inst.declaredInputs shapes bound.selection workspace
      (inst.reselect shapes ⟨registry, device⟩ failures workspace) := by
  have hothers : ∀ other : Selection,
      registry.Meets (·.Viable inst.node inst.declaredInputs shapes) other →
      decide (some other.descriptor ≠ inst.descriptor?) = true := by
    intro other hother
    rw [hbound, decide_eq_true_eq, ne_eq, Option.some.injEq]
    intro hsame
    unfold Registry.Meets at hother
    rw [hsame] at hother
    exact hnot hother
  have hfinds := finds_firstFinalizing hdeterministic inst shapes
    ((registry.selections inst.node inst.declaredInputs device).filter fun selection ↦
      some selection.descriptor ≠ inst.descriptor?) workspace.environment
  unfold reselect
  simp only [candidates_eq hmem]
  generalize firstFinalizing registry inst shapes _ workspace.environment = answer at hfinds
  obtain ⟨found, more, env⟩ := answer
  have hunchanged : workspace.Adds (workspace.withEnvironment env) fun _ _ ↦ False :=
    Workspace.adds_of_cache_eq rfl
  cases hfinds with
  | @found entry hfirst =>
    replace hfirst := hfirst.of_filter hothers
    refine .settled rfl rfl ⟨hfirst.mem, hfirst.holds⟩ (fun _ ↦ .later hnot hfirst)
      ((hunchanged.keep _ _).mono ?_)
    rintro key new ⟨rfl, rfl⟩
    exact ⟨by rw [signature], rfl⟩
  | nothing hnone =>
    refine .refused _ (fun other hmem hother ↦ ?_) hunchanged
    exact hnone other (List.mem_filter.2 ⟨hmem, hothers other hother⟩) hother

/-- What is bound is finalized when it works, and otherwise another candidate takes its place. -/
theorem settles_finalizeOrReselect (hdeterministic : registry.Deterministic)
    (hnew : registry.New inst.node inst.declaredInputs device bound)
    (hbound : inst.bound = some bound) :
    Settles registry device inst.node inst.declaredInputs shapes bound.selection workspace
      (inst.finalizeOrReselect shapes ⟨registry, device⟩ workspace) := by
  obtain ⟨hmem, descriptor, hdescriptor, himplementation⟩ := hnew
  have hmeets := @Registry.meets_iff ι registry bound.selection descriptor
    (·.Viable inst.node inst.declaredInputs shapes) hdescriptor
  have hid : inst.descriptor? = some bound.descriptor := by rw [descriptor?, hbound]; rfl
  unfold finalizeOrReselect
  simp only [hbound]
  split
  · rename_i hsupports
    rw [boundSupports, implementation?, hbound, Option.map_some, Option.any_some,
      himplementation] at hsupports
    rw [himplementation]
    cases hfinalize : Implementation.finalize (descriptor.instantiate inst.node) shapes
      inst.node.op workspace.environment with
    | mk result answer =>
      obtain ⟨implementation, env⟩ := answer
      have hunchanged : workspace.Adds (workspace.withEnvironment env) fun _ _ ↦ False :=
        Workspace.adds_of_cache_eq rfl
      cases result with
      | ok form =>
        have hviable : registry.Meets (·.Viable inst.node inst.declaredInputs shapes)
            bound.selection := by
          refine hmeets.2 ⟨hsupports, (hdeterministic.of_descriptor? hdescriptor).finalizes
            workspace.environment ?_⟩
          rw [hfinalize]
          rfl
        refine .settled rfl rfl ⟨hmem, hviable⟩ (fun _ ↦ .here hviable)
          ((hunchanged.keep _ _).mono ?_)
        rintro key new ⟨rfl, rfl⟩
        exact ⟨by rw [signature], rfl⟩
      | error error =>
        have hnot : ¬registry.Meets (·.Viable inst.node inst.declaredInputs shapes)
            bound.selection := by
          intro hviable
          have hok := (hmeets.1 hviable).finalizes workspace.environment
          rw [hfinalize] at hok
          cases hok
        exact (settles_reselect hdeterministic
          { inst with bound := some { bound with implementation } } hmem rfl hnot _).of_adds
          hunchanged
  · rename_i hsupports
    refine settles_reselect hdeterministic inst hmem hid (fun hviable ↦ hsupports ?_) []
    rw [boundSupports, implementation?, hbound, Option.map_some, Option.any_some, himplementation]
    exact (hmeets.1 hviable).takes

/-- A form of a candidate that works is taken from the cache, or one is made. -/
theorem settles_specialize (hdeterministic : registry.Deterministic)
    (hnew : registry.New inst.node inst.declaredInputs device bound)
    (hbound : inst.bound = some bound)
    (hcached : workspace.Suited registry device inst.node inst.declaredInputs shapes) :
    Settles registry device inst.node inst.declaredInputs shapes bound.selection workspace
      (inst.specialize shapes ⟨registry, device⟩ workspace) := by
  unfold specialize
  simp only
  generalize hacceptable : (fun entry : FinalizedImplementation ι ↦
    !inst.boundSupports shapes || decide (inst.descriptor? = some entry.bound.descriptor)) =
    acceptable
  obtain ⟨_, hadds, hhit⟩ := workspace.cached_spec (inst.signature, shapes) acceptable
  have haccepted := workspace.acceptable_of_cached (inst.signature, shapes) acceptable
  generalize workspace.cached (inst.signature, shapes) acceptable = answer
    at hadds hhit haccepted
  obtain ⟨_ | entry, workspace'⟩ := answer
  · exact (settles_finalizeOrReselect hdeterministic hnew hbound).of_adds
      (hadds.trans (Workspace.adds_of_cache_eq rfl))
  · obtain ⟨cache, hcache, hentry⟩ := hhit entry rfl
    rw [signature] at hentry
    have hsuits := hcached cache entry hcache hentry
    refine .settled rfl rfl hsuits (fun htakes ↦ ?_) (hadds.trans (.refl _))
    have hown : inst.boundSupports shapes = true := by
      obtain ⟨descriptor, hdescriptor, himplementation⟩ := hnew.implementation_eq
      rw [boundSupports, implementation?, hbound, Option.map_some, Option.any_some,
        himplementation]
      exact (Registry.meets_iff hdescriptor).1 htakes
    have hdescriptor := haccepted entry rfl
    simp only [← hacceptable, hown, Bool.not_true, Bool.false_or, decide_eq_true_eq, descriptor?,
      hbound, Option.map_some, Option.some.injEq] at hdescriptor
    have hsame : bound.selection = entry.bound.selection :=
      Registry.selection_eq hnew.mem hsuits.mem hdescriptor
    rw [hsame]
    exact .here hsuits.viable

/-- An instance that was just bound is prepared. -/
theorem settles_prepare (hdeterministic : registry.Deterministic) (hnode : inst.node = node)
    (hdeclared : inst.declaredInputs = declared) (hnew : registry.New node declared device bound)
    (hbound : inst.bound = some bound) (hstate : inst.state = .bound)
    (hcached : workspace.Suited registry device node declared shapes) :
    Settles registry device node declared shapes bound.selection workspace
      (inst.prepare shapes ⟨registry, device⟩ workspace) := by
  subst hnode hdeclared
  have hsettles : Settles registry device inst.node inst.declaredInputs shapes bound.selection
      workspace (inst.specialize shapes ⟨registry, device⟩ workspace) :=
    settles_specialize hdeterministic hnew hbound hcached
  unfold prepare
  simp only [hstate]
  generalize inst.specialize shapes ⟨registry, device⟩ workspace = answer at hsettles
  cases hsettles with
  | settled hnode hbound hsuits hfirst hadds =>
    exact .settled hnode hbound hsuits hfirst hadds
  | refused reason hnone hadds => exact .refused reason hnone hadds

end PrimitiveInstance

end TensorEngine
