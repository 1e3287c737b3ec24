import TensorEngine.Proofs.Instance.Counting
import TensorEngine.Proofs.Instance.Searching
import TensorEngine.Proofs.Program.Resting

/-!
# When the implementation changes

An instance that needs a form for other extents stays with what is bound to it as long as that takes
the extents and either left a form for them in the cache or can be finalized for them.  Otherwise a
form in the cache is taken over, or the first candidate in rank order that takes the extents and can
be finalized takes its place.  When there is none either, the reason lists what the attempts said,
in the order in which they were made.

What an attempt leaves behind in the environment is there for the next one, so the attempts are
followed one after the other.
-/

namespace TensorEngine

variable {ι ω α β : Type}

/-! ## Looking at the cache -/

namespace Workspace

def find? (workspace : Workspace ι ω) (key : CacheKey) : Option (FinalizedImplementation ι) :=
  workspace.cache.bind (·.find? key)

/-- What is answered is the entry for the key, when it is acceptable. -/
theorem fst_cached (workspace : Workspace ι ω) (key : CacheKey)
    (acceptable : FinalizedImplementation ι → Bool) :
    (workspace.cached key acceptable).1 = (workspace.find? key).filter acceptable := by
  unfold cached find?
  cases workspace.cache with
  | none => rfl
  | some cache =>
    simp only [Option.bind_some, ImplementationCache.get]
    cases cache.find? key with
    | none => rfl
    | some entry =>
      simp only [Option.filter_some]
      cases acceptable entry <;> rfl

end Workspace

/-- A new implementation for the node takes the extents. -/
def Descriptor.TakesFor [Implementation ι ω] (descriptor : Descriptor ι) (node : Node)
    (declared : List Layout) (shapes : ConcreteShapes) : Prop :=
  descriptor.Takes node (ConcreteShapes.pin declared shapes.inputs)
    (ConcreteShapes.pin node.outputs shapes.outputs)

namespace PrimitiveInstance

variable [Implementation ι ω] {registry : Registry ι} {device : DeviceCaps}
  {context : SpecializeContext ι} {inst inst' : PrimitiveInstance ι} {shapes : ConcreteShapes}
  {workspace workspace' : Workspace ι ω} {selection : Selection} {passed rest : List Selection}
  {descriptor : Descriptor ι} {entry : FinalizedImplementation ι} {env env' env'' : ω}
  {failures : List String} {node : Node} {declared : List Layout}

/-! ## The attempts -/

/-- Candidates that are passed over one after the other: those that do not take the extents, and
those that cannot be finalized, which leave a failure behind. -/
inductive PassesOver (registry : Registry ι) (node : Node) (declared : List Layout)
    (shapes : ConcreteShapes) : List Selection → ω → List String → ω → Prop
  | nil (env : ω) : PassesOver registry node declared shapes [] env [] env
  | declined {selection : Selection} {rest : List Selection} {descriptor : Descriptor ι}
      {failures : List String} {env env' : ω}
      (hdescriptor : registry.descriptor? selection.descriptor = some descriptor)
      (hdeclines : ¬descriptor.TakesFor node declared shapes)
      (hrest : PassesOver registry node declared shapes rest env failures env') :
      PassesOver registry node declared shapes (selection :: rest) env failures env'
  | failed {selection : Selection} {rest : List Selection} {descriptor : Descriptor ι}
      {error : BackendError} {implementation : ι} {failures : List String} {env env' env'' : ω}
      (hdescriptor : registry.descriptor? selection.descriptor = some descriptor)
      (htakes : descriptor.TakesFor node declared shapes)
      (hfails : Implementation.finalize (descriptor.instantiate node) shapes node.op env =
        (.error error, implementation, env'))
      (hrest : PassesOver registry node declared shapes rest env' failures env'') :
      PassesOver registry node declared shapes (selection :: rest) env
        (failureText descriptor.name error :: failures) env''

/-- A form that is made by the first of the candidates that takes the extents and can be
finalized. -/
structure Elects (registry : Registry ι) (node : Node) (declared : List Layout)
    (shapes : ConcreteShapes) (selections : List Selection) (env : ω)
    (entry : FinalizedImplementation ι) : Prop where
  exists_first : ∃ passed rest failures before descriptor after,
    selections = passed ++ entry.bound.selection :: rest ∧
      PassesOver registry node declared shapes passed env failures before ∧
      registry.descriptor? entry.bound.descriptor = some descriptor ∧
      descriptor.TakesFor node declared shapes ∧
      Implementation.finalize (descriptor.instantiate node) shapes node.op before =
        (.ok entry.form, entry.bound.implementation, after)

/-- The search goes on behind the candidates that are passed over, and remembers what they said. -/
theorem PassesOver.firstFinalizing_append
    (h : PassesOver registry inst.node inst.declaredInputs shapes passed env failures env')
    (rest : List Selection) :
    firstFinalizing registry inst shapes (passed ++ rest) env =
      ((firstFinalizing registry inst shapes rest env').1,
        failures ++ (firstFinalizing registry inst shapes rest env').2.1,
        (firstFinalizing registry inst shapes rest env').2.2) := by
  induction h with
  | nil => rfl
  | declined hdescriptor hdeclines _ ih =>
    rw [List.cons_append, firstFinalizing]
    simp only [hdescriptor]
    exact (if_neg hdeclines).trans ih
  | failed hdescriptor htakes hfails _ ih =>
    rw [List.cons_append, firstFinalizing]
    simp only [hdescriptor]
    refine (if_pos htakes).trans ?_
    simp only [hfails, ih, List.cons_append]

/-- The search ends without a form when all candidates are passed over. -/
theorem PassesOver.firstFinalizing_eq
    (h : PassesOver registry inst.node inst.declaredInputs shapes passed env failures env') :
    firstFinalizing registry inst shapes passed env = (none, failures, env') := by
  have happend := h.firstFinalizing_append []
  rw [List.append_nil] at happend
  rw [happend, firstFinalizing, List.append_nil]

/-- The search ends with the form of the first candidate that can make one. -/
theorem Elects.firstFinalizing_eq {selections : List Selection}
    (h : Elects registry inst.node inst.declaredInputs shapes selections env entry) :
    (firstFinalizing registry inst shapes selections env).1 = some entry := by
  obtain ⟨passed, rest, failures, before, descriptor, after, rfl, hpassed, hdescriptor, htakes,
    hmakes⟩ := h.exists_first
  have hid : registry.descriptor? entry.bound.selection.descriptor = some descriptor := hdescriptor
  have hsupports : Implementation.supports (descriptor.instantiate inst.node)
    (inst.concreteInputs shapes) (inst.concreteOutputs shapes) = true := htakes
  rw [hpassed.firstFinalizing_append, firstFinalizing]
  simp only [hid, hsupports, if_true, hmakes]
  rfl

/-- Behind a candidate that is passed over, the first one that can make a form is the same. -/
theorem Elects.append {selections : List Selection}
    (h : Elects registry node declared shapes selections env' entry)
    (hpassed : PassesOver registry node declared shapes [selection] env failures env') :
    Elects registry node declared shapes (selection :: selections) env entry := by
  obtain ⟨passed, rest, more, before, descriptor, after, rfl, hrest, hmakes⟩ := h.exists_first
  cases hpassed with
  | declined hdescriptor hdeclines hnil =>
    cases hnil
    exact ⟨selection :: passed, rest, _, before, descriptor, after, rfl,
      .declined hdescriptor hdeclines hrest, hmakes⟩
  | failed hdescriptor htakes hfails hnil =>
    cases hnil
    exact ⟨selection :: passed, rest, _, before, descriptor, after, rfl,
      .failed hdescriptor htakes hfails hrest, hmakes⟩

/-- Some candidate makes a form, or all are passed over. -/
theorem elects_or_passesOver (node : Node) (declared : List Layout) (shapes : ConcreteShapes)
    (selections : List Selection) (hdescriptors : ∀ selection ∈ selections,
      ∃ descriptor, registry.descriptor? selection.descriptor = some descriptor) :
    ∀ env : ω, (∃ entry, Elects registry node declared shapes selections env entry) ∨
      ∃ failures env', PassesOver registry node declared shapes selections env failures env' := by
  induction selections with
  | nil => exact fun env ↦ .inr ⟨[], env, .nil env⟩
  | cons selection rest ih =>
    intro env
    rw [List.forall_mem_cons] at hdescriptors
    obtain ⟨⟨descriptor, hdescriptor⟩, hrest⟩ := hdescriptors
    by_cases htakes : descriptor.TakesFor node declared shapes
    · cases hfinalize : Implementation.finalize (descriptor.instantiate node) shapes
        node.op env with
      | mk result answer =>
        obtain ⟨implementation, env'⟩ := answer
        cases result with
        | ok form =>
          exact .inl ⟨⟨⟨selection.descriptor, implementation, selection.requiresConversion⟩, form⟩,
            [], rest, [], env, descriptor, env', rfl, .nil env, hdescriptor, htakes, hfinalize⟩
        | error error =>
          rcases ih hrest env' with ⟨entry, helects⟩ | ⟨failures, env'', hpassed⟩
          · exact .inl ⟨entry, helects.append (.failed hdescriptor htakes hfinalize (.nil _))⟩
          · exact .inr ⟨_, env'', .failed hdescriptor htakes hfinalize hpassed⟩
    · rcases ih hrest env with ⟨entry, helects⟩ | ⟨failures, env', hpassed⟩
      · exact .inl ⟨entry, helects.append (.declined hdescriptor htakes (.nil _))⟩
      · exact .inr ⟨failures, env', .declined hdescriptor htakes hpassed⟩

/-! ## What may take the place of what is bound -/

/-- The candidates other than what is bound, best first. -/
def rivals (inst : PrimitiveInstance ι) (registry : Registry ι) (device : DeviceCaps) :
    List Selection :=
  (registry.selections inst.node inst.declaredInputs device).filter fun selection ↦
    some selection.descriptor ≠ inst.descriptor?

omit [Implementation ι ω] in
theorem mem_rivals_iff : selection ∈ inst.rivals registry device ↔
    (∃ descriptor, registry.Candidate inst.node inst.declaredInputs device selection descriptor) ∧
      some selection.descriptor ≠ inst.descriptor? := by
  rw [rivals, List.mem_filter, Registry.mem_selections_iff, decide_eq_true_eq]

omit [Implementation ι ω] in
/-- The rivals are in order. -/
theorem pairwise_rivals (inst : PrimitiveInstance ι) (registry : Registry ι)
    (device : DeviceCaps) : (inst.rivals registry device).Pairwise fun a b ↦
      ∀ descriptor descriptor', registry.descriptor? a.descriptor = some descriptor →
        registry.descriptor? b.descriptor = some descriptor' →
        a.rank descriptor ≤ b.rank descriptor' :=
  (Registry.pairwise_selections registry inst.node inst.declaredInputs device).filter _

omit [Implementation ι ω] in
theorem exists_descriptor_of_mem_rivals (h : selection ∈ inst.rivals registry device) :
    ∃ descriptor, registry.descriptor? selection.descriptor = some descriptor := by
  obtain ⟨⟨descriptor, hcandidate⟩, _⟩ := mem_rivals_iff.1 h
  exact ⟨descriptor, hcandidate.descriptor_eq⟩

/-! ## Answers -/

/-- The instance has taken over a form and is ready. -/
structure Installs (answer : Except RuntimeError α × PrimitiveInstance ι × Workspace ι ω)
    (entry : FinalizedImplementation ι) : Prop where
  isOk_eq : answer.1.isOk = true
  state_eq : answer.2.1.state = .ready
  bound_eq : answer.2.1.bound = some entry.bound
  form_eq : answer.2.1.form = some entry.form

/-- The instance has failed with an error. -/
structure FailsWith (answer : Except RuntimeError α × PrimitiveInstance ι × Workspace ι ω)
    (error : RuntimeError) : Prop where
  error_eq : answer.1 = .error error
  state_eq : answer.2.1.state = .failed

/-- The error when no form can be made: the failures so far, unless there was no candidate to begin
with. -/
def surrender (inst : PrimitiveInstance ι) (registry : Registry ι) (device : DeviceCaps)
    (shapes : ConcreteShapes) (failures : List String) : RuntimeError :=
  if registry.selections inst.node inst.declaredInputs device = [] then
    Registry.incompatible inst.node inst.declaredInputs
  else inst.finalizationFailure shapes failures

/-- What is bound is replaced, after some failures: the form of the first rival that can make one is
installed, and when there is none the instance fails with all that was said. -/
structure Replaced (registry : Registry ι) (device : DeviceCaps) (inst : PrimitiveInstance ι)
    (shapes : ConcreteShapes) (failures : List String) (env : ω)
    (answer : Except RuntimeError α × PrimitiveInstance ι × Workspace ι ω) : Prop where
  elected : ∀ entry, Elects registry inst.node inst.declaredInputs shapes
    (inst.rivals registry device) env entry → Installs answer entry
  exhausted : (∀ entry, ¬Elects registry inst.node inst.declaredInputs shapes
      (inst.rivals registry device) env entry) →
    ∃ more env', PassesOver registry inst.node inst.declaredInputs shapes
        (inst.rivals registry device) env more env' ∧
      FailsWith answer (inst.surrender registry device shapes (failures ++ more))

/-- Changing over to another candidate. -/
theorem replaced_reselect (registry : Registry ι) (device : DeviceCaps)
    (inst : PrimitiveInstance ι) (shapes : ConcreteShapes) (failures : List String)
    (workspace : Workspace ι ω) :
    inst.Replaced registry device shapes failures workspace.environment
      (inst.reselect shapes ⟨registry, device⟩ failures workspace) := by
  have hcases := elects_or_passesOver inst.node inst.declaredInputs shapes
    (inst.rivals registry device) (fun _ ↦ exists_descriptor_of_mem_rivals) workspace.environment
  unfold reselect Registry.candidates
  cases hselections : registry.selections inst.node inst.declaredInputs device with
  | nil =>
    have hnone : inst.rivals registry device = [] := by rw [rivals, hselections, List.filter_nil]
    refine ⟨fun entry helects ↦ ?_, fun _ ↦ ⟨[], workspace.environment, ?_, ?_, rfl⟩⟩
    · rw [hnone] at helects
      cases helects.firstFinalizing_eq
    · rw [hnone]
      exact .nil _
    · rw [surrender, if_pos hselections]
  | cons first others =>
    have hrivals : inst.rivals registry device = (first :: others).filter fun selection ↦
      some selection.descriptor ≠ inst.descriptor? := by rw [rivals, hselections]
    simp only [← hrivals]
    refine ⟨fun entry helects ↦ ?_, fun hnone ↦ ?_⟩
    · have hfound := helects.firstFinalizing_eq
      generalize firstFinalizing registry inst shapes _ workspace.environment = answer at hfound
      obtain ⟨found, more, env⟩ := answer
      obtain rfl : found = some entry := hfound
      exact ⟨rfl, rfl, rfl, rfl⟩
    · rcases hcases with ⟨entry, helects⟩ | ⟨more, env, hpassed⟩
      · exact absurd helects (hnone entry)
      · refine ⟨more, env, hpassed, ?_⟩
        rw [surrender, if_neg (by rw [hselections]; exact List.cons_ne_nil _ _)]
        simp only [hpassed.firstFinalizing_eq]
        exact ⟨rfl, rfl⟩

/-! ## What is bound -/

/-- What is bound need not change: it takes the extents, and it left a form for them in the cache or
can be finalized for them. -/
structure StaysBound (inst : PrimitiveInstance ι) (shapes : ConcreteShapes)
    (workspace : Workspace ι ω) : Prop where
  supports : inst.boundSupports shapes = true
  serves : (∃ entry, workspace.find? (inst.signature, shapes) = some entry ∧
      inst.descriptor? = some entry.bound.descriptor) ∨
    ∃ bound, inst.bound = some bound ∧ (Implementation.finalize bound.implementation shapes
      inst.node.op workspace.environment).1.isOk = true

/-- What is bound gives way: it does not take the extents, or it cannot be finalized for them, which
leaves a failure behind. -/
inductive GivesWay (inst : PrimitiveInstance ι) (shapes : ConcreteShapes) (env : ω) :
    List String → ω → Prop
  | declined (hdeclines : inst.boundSupports shapes = false) : GivesWay inst shapes env [] env
  | failed {bound : BoundImplementation ι} {error : BackendError} {implementation : ι} {env' : ω}
      (hsupports : inst.boundSupports shapes = true) (hbound : inst.bound = some bound)
      (hfails : Implementation.finalize bound.implementation shapes inst.node.op env =
        (.error error, implementation, env')) :
      GivesWay inst shapes env [failureText (Implementation.name implementation) error] env'

/-- What is bound makes a form, or it gives way and is replaced. -/
theorem finalizeOrReselect_spec (registry : Registry ι) (device : DeviceCaps)
    (inst : PrimitiveInstance ι) (shapes : ConcreteShapes) (workspace : Workspace ι ω) :
    let answer := inst.finalizeOrReselect shapes ⟨registry, device⟩ workspace
    (∃ bound form implementation env, inst.bound = some bound ∧
      inst.boundSupports shapes = true ∧
      Implementation.finalize bound.implementation shapes inst.node.op workspace.environment =
        (.ok form, implementation, env) ∧
      Installs answer ⟨{ bound with implementation }, form⟩) ∨
    ∃ failures env, inst.GivesWay shapes workspace.environment failures env ∧
      inst.Replaced registry device shapes failures env answer := by
  have hreplaced := replaced_reselect registry device inst shapes [] workspace
  unfold finalizeOrReselect
  cases hbound : inst.bound with
  | none =>
    have hdeclines : inst.boundSupports shapes = false := by
      rw [boundSupports, implementation?, hbound, Option.map_none, Option.any_none]
    exact .inr ⟨[], _, .declined hdeclines, hreplaced⟩
  | some bound =>
    cases hsupports : inst.boundSupports shapes with
    | false =>
      simp only [Bool.false_eq_true, if_false]
      exact .inr ⟨[], _, .declined hsupports, hreplaced⟩
    | true =>
      simp only [if_true]
      cases hfinalize : Implementation.finalize bound.implementation shapes inst.node.op
        workspace.environment with
      | mk result answer =>
        obtain ⟨implementation, env⟩ := answer
        cases result with
        | ok form =>
          exact .inl ⟨bound, form, implementation, env, rfl, trivial, hfinalize,
            rfl, rfl, rfl, rfl⟩
        | error error =>
          have hrivals : rivals { inst with bound := some { bound with implementation } } registry
              device = inst.rivals registry device := by
            rw [rivals, rivals, descriptor?, descriptor?, hbound]
            rfl
          obtain ⟨helected, hexhausted⟩ := replaced_reselect registry device
            { inst with bound := some { bound with implementation } } shapes
            [failureText (Implementation.name implementation) error]
            (workspace.withEnvironment env)
          rw [hrivals] at helected hexhausted
          exact .inr ⟨_, env, .failed hsupports hbound hfinalize, helected, hexhausted⟩

/-! ## Acquiring a form -/

/-- How an instance comes by a form for other extents. -/
structure Respecializes (registry : Registry ι) (device : DeviceCaps) (inst : PrimitiveInstance ι)
    (shapes : ConcreteShapes) (workspace : Workspace ι ω)
    (answer : Except RuntimeError α × PrimitiveInstance ι × Workspace ι ω) : Prop where
  /-- What is bound does not change unless it must. -/
  stays : inst.StaysBound shapes workspace →
    ∃ entry, Installs answer entry ∧ inst.descriptor? = some entry.bound.descriptor
  /-- In place of what does not take the extents, a form in the cache is taken over. -/
  reuses : inst.boundSupports shapes = false →
    ∀ entry, workspace.find? (inst.signature, shapes) = some entry → Installs answer entry
  /-- Otherwise what is bound gives way and is replaced. -/
  elects : ¬inst.StaysBound shapes workspace →
    inst.boundSupports shapes = true ∨ workspace.find? (inst.signature, shapes) = none →
    ∃ failures env, inst.GivesWay shapes workspace.environment failures env ∧
      inst.Replaced registry device shapes failures env answer

/-- A form is made when the cache has none that may be taken. -/
theorem respecializes_finalizeOrReselect (inst : PrimitiveInstance ι) (shapes : ConcreteShapes)
    {workspace middle : Workspace ι ω} (henv : middle.environment = workspace.environment)
    (hmissed : (workspace.find? (inst.signature, shapes)).filter (inst.accepts shapes) = none) :
    inst.Respecializes registry device shapes workspace
      (inst.finalizeOrReselect shapes ⟨registry, device⟩ middle) := by
  have hrefused : ∀ entry, workspace.find? (inst.signature, shapes) = some entry →
      inst.boundSupports shapes = true ∧ inst.descriptor? ≠ some entry.bound.descriptor := by
    intro entry hentry
    rw [hentry, Option.filter_eq_none_iff] at hmissed
    simpa [accepts] using hmissed entry rfl
  have hspec := finalizeOrReselect_spec registry device inst shapes middle
  simp only [henv] at hspec
  refine ⟨fun ⟨hsupports, hserves⟩ ↦ ?_, fun hdeclines entry hentry ↦ ?_, fun hgives _ ↦ ?_⟩
  · rcases hspec with ⟨bound, form, implementation, env, hbound, _, _, hinstalls⟩ |
      ⟨failures, env, hgives, _⟩
    · exact ⟨_, hinstalls, by rw [descriptor?, hbound]; rfl⟩
    · exfalso
      rcases hserves with ⟨entry, hentry, hown⟩ | ⟨bound, hbound, hok⟩
      · exact (hrefused entry hentry).2 hown
      · cases hgives with
        | declined hdeclines => exact Bool.noConfusion (hsupports.symm.trans hdeclines)
        | failed _ hbound' hfails =>
          obtain rfl := Option.some.inj (hbound.symm.trans hbound')
          rw [hfails] at hok
          cases hok
  · exact Bool.noConfusion ((hrefused entry hentry).1.symm.trans hdeclines)
  · rcases hspec with ⟨bound, form, implementation, env, hbound, hsupports, hfinalize, _⟩ | hspec
    · exact absurd ⟨hsupports, .inr ⟨bound, hbound, by rw [hfinalize]; rfl⟩⟩ hgives
    · exact hspec

/-- A form is taken from the cache, or one is made. -/
theorem respecializes_specialize (registry : Registry ι) (device : DeviceCaps)
    (inst : PrimitiveInstance ι) (shapes : ConcreteShapes) (workspace : Workspace ι ω) :
    inst.Respecializes registry device shapes workspace
      (inst.specialize shapes ⟨registry, device⟩ workspace) := by
  have hfst := workspace.fst_cached (inst.signature, shapes) (inst.accepts shapes)
  have henv := (workspace.cached_spec (inst.signature, shapes) (inst.accepts shapes)).1
  simp only [specialize]
  generalize hanswer : workspace.cached (inst.signature, shapes) _ = answer
  have hcached : workspace.cached (inst.signature, shapes) (inst.accepts shapes) = answer := hanswer
  rw [hcached] at hfst henv
  obtain ⟨_ | entry, workspace'⟩ := answer
  · exact respecializes_finalizeOrReselect inst shapes henv hfst.symm
  · obtain ⟨hentry, haccepts⟩ := Option.filter_eq_some_iff.1 hfst.symm
    have hinstalls : ∀ workspace : Workspace ι ω, Installs ((.ok (decide (inst.descriptor? ≠
        some entry.bound.descriptor)) : Except RuntimeError Bool), inst.reuse entry, workspace)
        entry := fun _ ↦ ⟨rfl, rfl, rfl, rfl⟩
    rw [accepts, Bool.or_eq_true, Bool.not_eq_true', decide_eq_true_eq] at haccepts
    refine ⟨fun hstays ↦ ⟨entry, hinstalls _, ?_⟩, fun _ other hother ↦ ?_, fun hgives hwhy ↦ ?_⟩
    · exact haccepts.resolve_left (ne_false_of_eq_true hstays.supports)
    · obtain rfl := Option.some.inj (hentry.symm.trans hother)
      exact hinstalls _
    · rcases hwhy with hsupports | hnone
      · have hown := haccepts.resolve_left (ne_false_of_eq_true hsupports)
        exact absurd ⟨hsupports, .inl ⟨entry, hentry, hown⟩⟩ hgives
      · cases hnone.symm.trans hentry

/-! ## Preparing -/

/-- The instance needs a form for the extents: it has none, or one for other extents. -/
def Awaits (inst : PrimitiveInstance ι) (shapes : ConcreteShapes) : Prop :=
  inst.state = .bound ∨ inst.state = .stale ∨
    inst.state = .ready ∧ inst.needsReshape shapes = true

/-- The answer of a preparation is that of acquiring a form, told in other words. -/
structure Retells (prepared : Except RuntimeError β × PrimitiveInstance ι × Workspace ι ω)
    (answer : Except RuntimeError α × PrimitiveInstance ι × Workspace ι ω) : Prop where
  isOk_eq : prepared.1.isOk = answer.1.isOk
  error_eq : ∀ error, answer.1 = .error error → prepared.1 = .error error
  state_eq : prepared.2.1.state = answer.2.1.state
  bound_eq : prepared.2.1.bound = answer.2.1.bound
  form_eq : prepared.2.1.form = answer.2.1.form
  workspace_eq : prepared.2.2 = answer.2.2

/-- Being stale plays no part in how an instance comes by a form. -/
theorem retells_prepare (h : inst.Awaits shapes) (context : SpecializeContext ι)
    (workspace : Workspace ι ω) : ∃ state, Retells (inst.prepare shapes context workspace)
      ((inst.withState state).specialize shapes context workspace) := by
  unfold prepare
  rcases h with hstate | hstate | ⟨hstate, hneeds⟩
  · refine ⟨.bound, ?_⟩
    rw [show inst.withState .bound = inst by rw [← hstate]; rfl]
    simp only [hstate]
    generalize inst.specialize shapes context workspace = answer
    obtain ⟨error | reselected, inst', workspace'⟩ := answer
    · exact ⟨rfl, fun _ herror ↦ congrArg _ (Except.error.inj herror), rfl, rfl, rfl, rfl⟩
    · exact ⟨rfl, nofun, rfl, rfl, rfl, rfl⟩
  all_goals
    refine ⟨.stale, ?_⟩
    simp only [*, reduceCtorEq, decide_false, Bool.false_and, decide_true, Bool.not_true,
      Bool.and_false, Bool.false_eq_true, if_false]
    generalize (inst.withState .stale).specialize shapes context workspace = answer
    obtain ⟨error | reselected, inst', workspace'⟩ := answer
    · exact ⟨rfl, fun _ herror ↦ congrArg _ (Except.error.inj herror), rfl, rfl, rfl, rfl⟩
    · exact ⟨rfl, nofun, rfl, rfl, rfl, rfl⟩

/-- An instance that does not need a form leaves everything as it is. -/
theorem workspace_prepare (h : ¬inst.Awaits shapes) (context : SpecializeContext ι)
    (workspace : Workspace ι ω) : (inst.prepare shapes context workspace).2.2 = workspace := by
  unfold prepare
  cases hstate : inst.state with
  | unbound | executing | failed => rfl
  | bound => exact absurd (.inl hstate) h
  | stale => exact absurd (.inr (.inl hstate)) h
  | ready =>
    have hfits : inst.needsReshape shapes = false :=
      Bool.eq_false_of_not_eq_true fun hneeds ↦ h (.inr (.inr ⟨hstate, hneeds⟩))
    simp only [hfits, decide_true, Bool.not_false, Bool.and_true, if_true]

variable {prepared : Except RuntimeError β × PrimitiveInstance ι × Workspace ι ω}
  {answer : Except RuntimeError α × PrimitiveInstance ι × Workspace ι ω} {error : RuntimeError}
  {state : InstanceState}

omit [Implementation ι ω] in
theorem Installs.retell (h : Installs answer entry) (hretells : Retells prepared answer) :
    Installs prepared entry :=
  ⟨hretells.isOk_eq.trans h.isOk_eq, hretells.state_eq.trans h.state_eq,
    hretells.bound_eq.trans h.bound_eq, hretells.form_eq.trans h.form_eq⟩

omit [Implementation ι ω] in
theorem FailsWith.retell (h : FailsWith answer error) (hretells : Retells prepared answer) :
    FailsWith prepared error :=
  ⟨hretells.error_eq error h.error_eq, hretells.state_eq.trans h.state_eq⟩

/-- How an instance comes by a form does not depend on its state, nor on how it is told. -/
theorem Respecializes.retell
    (h : (inst.withState state).Respecializes registry device shapes workspace answer)
    (hretells : Retells prepared answer) :
    inst.Respecializes registry device shapes workspace prepared := by
  refine ⟨fun hstays ↦ ?_, fun hdeclines entry hentry ↦ ?_, fun hgives hwhy ↦ ?_⟩
  · obtain ⟨entry, hinstalls, hown⟩ := h.stays ⟨hstays.supports, hstays.serves⟩
    exact ⟨entry, hinstalls.retell hretells, hown⟩
  · exact (h.reuses hdeclines entry hentry).retell hretells
  · obtain ⟨failures, env, hfailures, helected, hexhausted⟩ :=
      h.elects (fun hstays ↦ hgives ⟨hstays.supports, hstays.serves⟩) hwhy
    refine ⟨failures, env, ?_, fun entry helects ↦ (helected entry helects).retell hretells,
      fun hnone ↦ ?_⟩
    · cases hfailures with
      | declined hdeclines => exact .declined hdeclines
      | failed hsupports hbound hfails => exact .failed hsupports hbound hfails
    · obtain ⟨more, env', hpassed, hfails⟩ := hexhausted hnone
      exact ⟨more, env', hpassed, hfails.retell hretells⟩

/-- A preparation brings the instance a form for the extents. -/
theorem respecializes_prepare (h : inst.Awaits shapes) (registry : Registry ι)
    (device : DeviceCaps) (workspace : Workspace ι ω) :
    inst.Respecializes registry device shapes workspace
      (inst.prepare shapes ⟨registry, device⟩ workspace) := by
  obtain ⟨state, hretells⟩ := retells_prepare h ⟨registry, device⟩ workspace
  exact (respecializes_specialize registry device (inst.withState state) shapes workspace).retell
    hretells

/-! ## What is in the cache -/

/-- What is added to the cache is kept under its own extents. -/
theorem Specializes.adds
    (h : inst.Specializes registry device shapes workspace answer) :
    workspace.Adds answer.2.2 fun key entry ↦ entry.form.shapes = key.2 := by
  cases h with
  | cached _ _ _ hadds => exact hadds.mono fun _ _ ↦ False.elim
  | changed h =>
    cases h with
    | made _ hadds => exact hadds.mono fun key entry hnew ↦ by rw [hnew.1, hnew.2]
    | failed _ hadds => exact hadds.mono fun _ _ ↦ False.elim

theorem Specializes.state_eq {a : α}
    (h : inst.Specializes registry device shapes workspace (Except.ok a, inst', workspace')) :
    inst'.state = .ready := by
  cases h with
  | cached _ _ _ _ _ hstate => exact hstate
  | changed h =>
    cases h with
    | made _ _ _ hstate => exact hstate

/-- A form that an instance comes by is for the extents that it needs. -/
theorem Specializes.shapes_eq {a : α} (hshapes : KeepsShapes ι ω)
    (hkeeps : workspace.Keeps fun key entry ↦ entry.form.shapes = key.2)
    (h : inst.Specializes registry device shapes workspace (Except.ok a, inst', workspace')) :
    ∃ form, inst'.form = some form ∧ form.shapes = shapes := by
  cases h with
  | @cached _ _ _ cache entry hcache hmem _ _ _ _ _ hform =>
    exact ⟨entry.form, hform, hkeeps cache hcache _ entry hmem⟩
  | changed h =>
    cases h with
    | made hmakes _ _ _ _ hform =>
      obtain ⟨bound, before, _, _, hfinalize, _⟩ := hmakes.made
      exact ⟨_, hform, hshapes bound.implementation shapes inst.node.op before _
        (congrArg Prod.fst hfinalize)⟩

end PrimitiveInstance

namespace Workspace

variable [Implementation ι ω] {workspace : Workspace ι ω}

/-- The workspaces that come about: the cache is empty at first, and instances are prepared one
after the other. -/
inductive Reachable : Workspace ι ω → Prop
  | fresh (capacity : Nat) (session : Session ω) :
      Reachable ⟨ImplementationCache.ofCapacity? capacity, session⟩
  | prepare {workspace : Workspace ι ω} (h : Reachable workspace) (inst : PrimitiveInstance ι)
      (shapes : ConcreteShapes) (registry : Registry ι) (device : DeviceCaps) :
      Reachable (inst.prepare shapes ⟨registry, device⟩ workspace).2.2
  | resume {workspace : Workspace ι ω} (h : Reachable workspace) (session : Session ω) :
      Reachable { workspace with session }

/-- Whatever instances are prepared, a form is kept under its own extents. -/
theorem Reachable.keeps (h : workspace.Reachable) :
    workspace.Keeps fun key entry ↦ entry.form.shapes = key.2 := by
  induction h with
  | fresh capacity session => exact keeps_ofCapacity? capacity session
  | resume _ session ih => exact ih
  | @prepare workspace _ inst shapes registry device ih =>
    by_cases hawaits : inst.Awaits shapes
    · obtain ⟨state, hretells⟩ :=
        PrimitiveInstance.retells_prepare hawaits ⟨registry, device⟩ workspace
      rw [hretells.workspace_eq]
      exact (PrimitiveInstance.specializes_specialize registry device (inst.withState state) shapes
        workspace).adds.keeps ih fun _ _ _ hnew ↦ hnew
    · rw [PrimitiveInstance.workspace_prepare hawaits]
      exact ih

end Workspace

namespace PrimitiveInstance

variable [Implementation ι ω] {inst : PrimitiveInstance ι} {shapes : ConcreteShapes}

/-- The implementation changes only when it must, and then to the best one.

An instance that needs a form for the extents stays with what is bound to it when that takes them
and has left a form in the cache or can be finalized.  A form in the cache replaces only what does
not take the extents.  Otherwise the first of the other candidates, in rank order, that takes the
extents and can be finalized is installed, and when there is none the instance fails with all that
was said, in order.  When the registry has no candidate at all for the node, that is said instead.
An instance that did not fail is ready, with a form for the extents. -/
theorem prepare_changes_when_needed (h : inst.Awaits shapes) (registry : Registry ι)
    (device : DeviceCaps) (workspace : Workspace ι ω) :
    inst.Respecializes registry device shapes workspace
      (inst.prepare shapes ⟨registry, device⟩ workspace) ∧
    (∀ selection, selection ∈ inst.rivals registry device ↔
      (∃ descriptor,
        registry.Candidate inst.node inst.declaredInputs device selection descriptor) ∧
        some selection.descriptor ≠ inst.descriptor?) ∧
    ((inst.rivals registry device).Pairwise fun a b ↦
      ∀ descriptor descriptor', registry.descriptor? a.descriptor = some descriptor →
        registry.descriptor? b.descriptor = some descriptor' →
        a.rank descriptor ≤ b.rank descriptor') ∧
    ∀ transition, (inst.prepare shapes ⟨registry, device⟩ workspace).1 = .ok transition →
      (inst.prepare shapes ⟨registry, device⟩ workspace).2.1.state = .ready ∧
      (KeepsShapes ι ω → workspace.Reachable →
        ∃ form, (inst.prepare shapes ⟨registry, device⟩ workspace).2.1.form = some form ∧
          form.shapes = shapes) := by
  refine ⟨respecializes_prepare h registry device workspace, fun _ ↦ mem_rivals_iff,
    inst.pairwise_rivals registry device, fun transition hok ↦ ?_⟩
  obtain ⟨state, hretells⟩ := retells_prepare h ⟨registry, device⟩ workspace
  have hspecializes :=
    specializes_specialize registry device (inst.withState state) shapes workspace
  generalize (inst.withState state).specialize shapes ⟨registry, device⟩ workspace = answer
    at hretells hspecializes
  obtain ⟨error | reselected, inst', workspace'⟩ := answer
  · cases (hretells.error_eq error rfl).symm.trans hok
  · refine ⟨hretells.state_eq.trans hspecializes.state_eq, fun hshapes hreachable ↦ ?_⟩
    rw [hretells.form_eq]
    exact hspecializes.shapes_eq hshapes hreachable.keeps

/-- The difference of two lists of numbers, of any length, bound to the bounded implementation. -/
def difference : PrimitiveInstance CatalogueImplementation :=
  (bind (.ofNode
    ⟨⟨2⟩, .binary .sub, [⟨0⟩, ⟨1⟩], [⟨⟨[.unbounded]⟩, .f32, .rowMajor⟩]⟩
    [⟨⟨[.unbounded]⟩, .f32, .rowMajor⟩, ⟨⟨[.unbounded]⟩, .f32, .rowMajor⟩])
    Program.mixedRegistry Program.openDevice).2

/-- Two lists of five numbers and their difference. -/
def fiveNumbers : ConcreteShapes := ⟨[[5], [5]], [[5]]⟩

def uncached : Workspace CatalogueImplementation Environment := ⟨none, Program.freshSession⟩

/-- Lists of five numbers outgrow the bounded implementation; the parallel one takes its place. -/
theorem prepare_changes_when_needed_difference : difference.Awaits fiveNumbers ∧
    difference.implementationName? = some "test.limited_binary" ∧
    (difference.prepare fiveNumbers ⟨Program.mixedRegistry, Program.openDevice⟩
      uncached).2.1.implementationName? = some "parallel.elementwise_binary" ∧
    difference.Respecializes Program.mixedRegistry Program.openDevice fiveNumbers uncached
      (difference.prepare fiveNumbers ⟨Program.mixedRegistry, Program.openDevice⟩ uncached) ∧
    ∃ form, (difference.prepare fiveNumbers ⟨Program.mixedRegistry, Program.openDevice⟩
      uncached).2.1.form = some form ∧ form.shapes = fiveNumbers := by
  have hawaits : difference.Awaits fiveNumbers := .inl (by cbv)
  have hok : (difference.prepare fiveNumbers ⟨Program.mixedRegistry, Program.openDevice⟩
      uncached).1 = .ok .finalized := by
    cbv
  obtain ⟨hrespecializes, _, _, hends⟩ := prepare_changes_when_needed hawaits Program.mixedRegistry
    Program.openDevice uncached
  exact ⟨hawaits, by cbv, by cbv, hrespecializes,
    (hends .finalized hok).2 CatalogueImplementation.keepsShapes (.fresh 0 Program.freshSession)⟩

/-- A device for which no family of implementations may be used. -/
def closedDevice : DeviceCaps := ⟨"closed", [], 1, []⟩

/-- Without any candidate the failures are not listed: nothing is left to be finalized, and yet the
answer is not that of an instance for which nothing could be finalized. -/
theorem prepare_without_candidates : difference.Awaits fiveNumbers ∧
    difference.boundSupports fiveNumbers = false ∧
    uncached.find? (difference.signature, fiveNumbers) = none ∧
    difference.rivals Program.mixedRegistry closedDevice = [] ∧
    ∀ failures, (difference.prepare fiveNumbers ⟨Program.mixedRegistry, closedDevice⟩ uncached).1 ≠
      .error (difference.finalizationFailure fiveNumbers failures) := by
  have herror : (difference.prepare fiveNumbers ⟨Program.mixedRegistry, closedDevice⟩ uncached).1 =
      .error (Registry.incompatible difference.node difference.declaredInputs) := by
    cbv
  refine ⟨.inl (by cbv), by cbv, rfl, by cbv, fun failures h ↦ ?_⟩
  cases herror.symm.trans h

end PrimitiveInstance

end TensorEngine
