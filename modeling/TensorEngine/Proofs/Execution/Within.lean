import TensorEngine.Proofs.Execution.Damage
import TensorEngine.Proofs.Execution.Traces
import TensorEngine.Proofs.Instance.Suiting
import TensorEngine.Proofs.Kernel.Within

/-!
# Runs within words and slots

Over the reference implementations alone, every kernel that a run calls is that of an operation from
which the extents of the visit derive.  So the products that it forms fit a word, no index leaves
its operand, and no failure leaves the device in doubt.  The extents of a place that was computed
were counted before its slot was filled.
-/

namespace TensorEngine

open CatalogueImplementation Kernel

variable {graph : Graph} {plan : MemoryPlan} {p : Nat} {node : Node} {shapes : ConcreteShapes}
  {dims : Dims} {op : OpSpec} {pool : MemoryPool} {bindings : Bindings} {env : Environment}
  {error : RuntimeError}

/-! ## Arguments of a run -/

/-- The views of the slots have the extents that the operation derives, and as many elements. -/
theorem MemoryPool.views_of_arguments {places : List Nat} {slot : Nat} {views : List TensorView}
    {out : TensorView} (hlen : places.length = shapes.inputs.length)
    (hderived : shapes.DerivedBy op)
    (h : pool.arguments places slot shapes = .ok (views, out)) : op.Views views out := by
  obtain ⟨inputs, outputs⟩ := shapes
  obtain ⟨dims, hdims, rfl⟩ : ∃ dims, op.outputDims inputs = .ok dims ∧ outputs = [dims] := hderived
  obtain ⟨operands, data, hoperands, _, hviews, hout⟩ := arguments_eq_ok_iff.1 h
  obtain ⟨rfl, hsized⟩ := forall₂_viewOf (hoperands.length_eq.symm.trans hlen) hviews
  obtain ⟨count, hcount, hle, rfl⟩ := viewOf_eq_ok_iff.1 hout
  refine ⟨forall_mem_of_forall₂ (hsized.imp fun _ _ h ↦ h.1), hdims, ?_⟩
  show elementCount? dims = some (data.take count).size
  rw [hcount, TensorData.size_take, Nat.min_eq_left hle]

namespace PrimitiveInstance

section

variable {ι : Type} {inst : PrimitiveInstance ι}

/-- An instance gathers the arguments in its slots, or refuses a run for lack of an implementation
or because it would overwrite an operand. -/
theorem dispatch_cases (shapes : ConcreteShapes) (pool : MemoryPool)
    (hplaced : inst.Placed graph plan p) :
    (∃ error, inst.dispatch shapes pool = .error error ∧ error.isCorrupting = false) ∨
    ∃ impl, inst.implementation? = some impl ∧ inst.dispatch shapes pool =
      (pool.arguments (plan.operandPlaces graph inst.node) (plan.place p) shapes).map
        fun (views, out) ↦ ⟨impl, views, plan.place p, out⟩ := by
  cases himpl : inst.implementation? with
  | none =>
    have hrefused : inst.dispatch shapes pool =
        .error (.execution "instance has no bound implementation") := by
      simp only [dispatch, himpl]
      rfl
    exact .inl ⟨_, hrefused, rfl⟩
  | some impl =>
    by_cases hmem : plan.place p ∈ plan.operandPlaces graph inst.node
    · have hrefused : inst.dispatch shapes pool = .error
          (.execution s!"output slot {plan.place p} is also read by the same instance") := by
        simp only [dispatch, himpl, hplaced.outputSlot_eq, hplaced.inputSlots_eq, hmem, if_true]
        rfl
      exact .inl ⟨_, hrefused, rfl⟩
    · exact .inr ⟨impl, rfl, dispatch_eq himpl hplaced hmem⟩

theorem isCorrupting_of_dispatch (hplaced : inst.Placed graph plan p) {source : BackendError}
    (h : inst.dispatch shapes pool = .error source) : source.isCorrupting = false := by
  rcases inst.dispatch_cases shapes pool hplaced with ⟨_, hrefused, hintact⟩ | ⟨_, _, harguments⟩
  · obtain rfl := Except.error.inj (h.symm.trans hrefused)
    exact hintact
  · exact isCorrupting_of_arguments (map_eq_error_iff.1 (harguments.symm.trans h))

end

/-- A run of a reference implementation stays in bounds. -/
def Dispatch.InBounds (call : Dispatch CatalogueImplementation) : Prop :=
  ∃ reference, call.implementation = .reference reference ∧
    reference.kernel.InBounds call.inputs call.output

theorem Dispatch.InBounds.mild {call : Dispatch CatalogueImplementation} (h : call.InBounds)
    (env : Environment) :
    Mild (Implementation.execute call.implementation call.inputs [call.output] env).1 := by
  obtain ⟨reference, hreference, hbounds⟩ := h
  rw [hreference]
  show Mild (reference.execute call.inputs [call.output]).1
  unfold ReferenceImplementation.execute
  split
  · exact mild_refused rfl
  · exact hbounds.mild

variable {inst : PrimitiveInstance CatalogueImplementation}
  {call : Dispatch CatalogueImplementation}

/-- The kernel of an instance that is ready for the extents of a visit stays in bounds. -/
theorem inBounds_of_dispatch (hnode : graph.nodes[p]? = some inst.node)
    (hready : Standard.suited.Ready shapes inst) (hplaced : inst.Placed graph plan p)
    (hkind : inst.node.kind ≠ .parameter)
    (hderives : inst.node.Derives (graph.inputLayouts inst.node) shapes dims)
    (h : inst.dispatch shapes pool = .ok call) : call.InBounds := by
  obtain ⟨impl, views, out, himpl, harguments, rfl⟩ : ∃ impl views out,
      inst.implementation? = some impl ∧
      pool.arguments (plan.operandPlaces graph inst.node) (plan.place p) shapes = .ok (views, out) ∧
      call = ⟨impl, views, plan.place p, out⟩ := by
    rcases inst.dispatch_cases shapes pool hplaced with ⟨_, hrefused, _⟩ | ⟨impl, himpl, hgathers⟩
    · exact absurd (hrefused.symm.trans h) error_ne_ok
    · obtain ⟨⟨views, out⟩, harguments, rfl⟩ := map_eq_ok_iff.1 (hgathers.symm.trans h)
      exact ⟨impl, views, out, himpl, harguments, rfl⟩
  obtain ⟨_, entry, hbound, _, _, _, hruns⟩ := hready
  obtain ⟨reference, op, hreference, hkernel, hsuits⟩ :=
    hruns (.inr ⟨dims, hderives.derived.resolve_left hkind, hderives.outputs_eq⟩)
  rw [implementation?, hbound, Option.map_some, Option.some.injEq] at himpl
  refine ⟨reference, himpl.symm.trans hreference, ?_⟩
  rw [hkernel]
  rcases hsuits with rfl | hderived
  · exact RefKernel.inBounds_parameter
  · have hlen : (plan.operandPlaces graph inst.node).length = shapes.inputs.length := by
      rw [hderives.length_inputs, MemoryPlan.operandPlaces, List.length_map,
        Graph.length_producers hnode, Graph.length_inputLayouts hnode]
    exact (MemoryPool.views_of_arguments hlen hderived harguments).inBounds

end PrimitiveInstance

/-! ## Failures that leave the device intact -/

namespace RuntimeError

/-- If an implementation failed, the device is intact. -/
def Intact : RuntimeError → Prop
  | .executionFailure _ _ _ source => source.isCorrupting = false
  | _ => True

theorem intact_of_harmless (h : error.poisonsProgram = false) : error.Intact := by
  cases error with
  | executionFailure => exact h
  | _ => trivial

end RuntimeError

/-- A failure that is harmless or about memory leaves the device intact. -/
theorem SparesOrRefuses.intact {α : Type} {result : Except RuntimeError α}
    (h : SparesOrRefuses result) (herror : result = .error error) : error.Intact := by
  rcases h with hharmless | ⟨_, _, _, hrefused⟩
  · exact RuntimeError.intact_of_harmless (hharmless error herror)
  · obtain rfl := Except.error.inj (herror.symm.trans hrefused)
    trivial

/-- The extents of a visit are refused without a run. -/
theorem ExecutionContext.intact_of_concreteShapes {ι : Type} {context : ExecutionContext ι}
    {extents : List (Option Dims)} (h : context.concreteShapes node extents = .error error) :
    error.Intact :=
  RuntimeError.intact_of_harmless (poisonsProgram_of_concreteShapes h)

namespace PrimitiveInstance

theorem intact_of_writeBinding {ι : Type} {inst : PrimitiveInstance ι} {slot : Nat}
    (hslot : inst.outputSlot = some slot)
    (h : (inst.writeBinding bindings pool).1 = .error error) : error.Intact := by
  have hspares : SparesOrRefuses (inst.node.fillBinding slot bindings pool).1 :=
    Node.spares_fillBinding slot
  refine hspares.intact ?_
  rw [inst.fillBinding_eq bindings pool hslot]
  exact h

variable {inst : PrimitiveInstance CatalogueImplementation}

/-- An instance that cannot be prepared has run nothing. -/
theorem intact_of_prepare {registry : Registry CatalogueImplementation} {device : DeviceCaps}
    {workspace : Workspace CatalogueImplementation Environment}
    (hstate : inst.state = .bound ∨ inst.state = .ready)
    (h : (inst.prepare shapes ⟨registry, device⟩ workspace).1 = .error error) : error.Intact := by
  rcases inst.prepare_cases registry device shapes workspace hstate with
    ⟨_, _, hanswer⟩ | hspecializes
  · rw [hanswer] at h
    cases h
  · generalize inst.prepare shapes ⟨registry, device⟩ workspace = answer at h hspecializes
    obtain ⟨result, inst', workspace'⟩ := answer
    obtain rfl : result = .error error := h
    cases hspecializes with
    | changed hchanges =>
      cases hchanges with
      | failed _ _ _ _ hwhy =>
        cases hwhy with
        | unmatched hcandidates =>
          unfold Registry.candidates at hcandidates
          split at hcandidates
          · exact Except.error.inj hcandidates ▸ trivial
          · cases hcandidates
        | exhausted => trivial

end PrimitiveInstance

/-! ## Runs of implementations -/

namespace PrimitiveInstance

section

variable {ι ω : Type} [Implementation ι ω] {inst : PrimitiveInstance ι} {call : Dispatch ι}

/-- What an instance runs to fill its slot, if it gets so far: room is made for the result before
the arguments are gathered. -/
def dispatch? (inst : PrimitiveInstance ι) (shapes : ConcreteShapes) (pool : MemoryPool) :
    Option (Dispatch ι) := do
  let (slot, elements) ← (inst.target shapes).toOption
  let (_, pool) ← (pool.ensureCapacity slot elements).toOption
  (inst.dispatch shapes pool).toOption

/-- The elements of the result are counted before anything is run. -/
theorem dispatch_of_dispatch? (h : inst.dispatch? shapes pool = some call) :
    (elementCount? (shapes.outputs.headD [])).isSome = true ∧
      ∃ pool, inst.dispatch shapes pool = .ok call := by
  obtain ⟨_, htarget, h⟩ := Option.bind_eq_some_iff.1 h
  obtain ⟨⟨_, pool⟩, _, h⟩ := Option.bind_eq_some_iff.1 h
  refine ⟨?_, pool, toOption_eq_some_iff.1 h⟩
  cases hcount : elementCount? (shapes.outputs.headD []) with
  | none =>
    simp only [target, hcount] at htarget
    cases htarget
  | some count => rfl

/-- How an instance fills its slot: as the implementation ends that it runs, or it runs none and
fails. -/
theorem execute_cases (shapes : ConcreteShapes) (pool : MemoryPool) (env : ω)
    (hplaced : inst.Placed graph plan p) (hstate : inst.state = .ready) :
    (∃ call, inst.dispatch? shapes pool = some call ∧ (inst.execute shapes pool env).1 =
      (Implementation.execute call.implementation call.inputs [call.output] env).1.mapError
        fun fault ↦ inst.executionFailure shapes.all
          (faultError (Implementation.name call.implementation) fault)) ∨
    inst.dispatch? shapes pool = none ∧
      ∃ error, (inst.execute shapes pool env).1 = .error error ∧ error.Intact := by
  simp only [dispatch?, execute, target, resultSlot, hplaced.outputSlot_eq]
  cases elementCount? (shapes.outputs.headD []) with
  | none => exact .inr ⟨rfl, _, rfl, trivial⟩
  | some count =>
    simp only [ok_bind, pure_eq_ok, reserve, Except.toOption, Option.bind_eq_bind, Option.bind_some]
    cases pool.ensureCapacity (plan.place p) count with
    | error refused => exact .inr ⟨rfl, refused.toRuntime, rfl, trivial⟩
    | ok room =>
      obtain ⟨_, pool⟩ := room
      have hsame : (inst.withState .executing).dispatch shapes pool = inst.dispatch shapes pool :=
        rfl
      simp only [beginExecute, hstate, if_true, runKernel, hsame, Option.bind_some]
      cases hdispatch : inst.dispatch shapes pool with
      | error source => exact .inr ⟨rfl, _, rfl, isCorrupting_of_dispatch hplaced hdispatch⟩
      | ok call =>
        refine .inl ⟨call, rfl, ?_⟩
        simp only
        generalize Implementation.execute call.implementation call.inputs [call.output] env = ended
        obtain ⟨_ | _, _, _⟩ := ended <;> rfl

/-- The slot of a node that is computed is filled by a run. -/
theorem fill_eq_execute (hkind : inst.node.kind.isExecutable = true) (bindings : Bindings)
    (pool : MemoryPool) (env : ω) :
    inst.fill shapes bindings pool env = inst.execute shapes pool env := by
  unfold fill
  cases hnode : inst.node.kind with
  | parameter | constant | reshape =>
    rw [hnode] at hkind
    cases hkind
  | elementwiseBinary | elementwiseUnary | matMul | reduce | reorder => rfl

end

/-- An instance whose run stays in bounds leaves the device intact, however it fills its slot. -/
theorem intact_of_fill {inst : PrimitiveInstance CatalogueImplementation}
    (hplaced : inst.Placed graph plan p) (hstate : inst.state = .ready)
    (hbounds : inst.node.kind ≠ .parameter → ∀ pool call, inst.dispatch shapes pool = .ok call →
      call.InBounds)
    (h : (inst.fill shapes bindings pool env).1 = .error error) : error.Intact := by
  cases hkind : inst.node.kind with
  | parameter =>
    simp only [fill, hkind] at h
    exact intact_of_writeBinding hplaced.outputSlot_eq h
  | constant | reshape =>
    simp only [fill, hkind] at h
    cases h
  | elementwiseBinary | elementwiseUnary | matMul | reduce | reorder =>
    rw [fill_eq_execute (by rw [hkind]; rfl)] at h
    rcases execute_cases shapes pool env hplaced hstate with
      ⟨call, hcall, hends⟩ | ⟨_, _, hfails, hintact⟩
    · obtain ⟨fault, hfault, rfl⟩ := mapError_eq_error_iff.1 (hends.symm.trans h)
      obtain ⟨_, pool, hdispatch⟩ := dispatch_of_dispatch? hcall
      have hcallBounds := hbounds (by rw [hkind]; nofun) pool call hdispatch
      exact (hcallBounds.mild env fault hfault).isCorrupting _
    · exact Except.error.inj (h.symm.trans hfails) ▸ hintact

end PrimitiveInstance

/-! ## Extents that were counted -/

/-- The results of operations that are computed have extents that a word can count. -/
def Graph.Counted (graph : Graph) (extents : List (Option Dims)) : Prop :=
  ∀ {p : Nat} {node : Node} {dims : Dims}, graph.nodes[p]? = some node →
    node.kind.isExecutable = true → extents[p]?.join = some dims →
      (elementCount? dims).isSome = true

/-- A slot is filled by a computation only after the elements were counted. -/
theorem PrimitiveInstance.counted_of_fill {ι ω : Type} [Implementation ι ω]
    {inst : PrimitiveInstance ι} {env : ω} (hplaced : inst.Placed graph plan p)
    (hstate : inst.state = .ready) (hkind : inst.node.kind.isExecutable = true)
    (h : (inst.fill shapes bindings pool env).1 = .ok ()) :
    (elementCount? (shapes.outputs.headD [])).isSome = true := by
  rw [fill_eq_execute hkind] at h
  rcases execute_cases shapes pool env hplaced hstate with ⟨_, hcall, _⟩ | ⟨_, _, hfails, _⟩
  · exact (dispatch_of_dispatch? hcall).1
  · exact absurd (hfails.symm.trans h) error_ne_ok

/-! ## Visits -/

namespace ExecutionState

variable {context : ExecutionContext CatalogueImplementation}
  {state : ExecutionState CatalogueImplementation Environment}
  {answer : Except RuntimeError Unit × ExecutionState CatalogueImplementation Environment}

/-- What is up to any standard is up to the one that asks for nothing. -/
theorem Upholds.anything {ι ω : Type} {standard : Standard ι ω} {state : ExecutionState ι ω}
    (h : state.Upholds standard graph plan) : state.Upholds (.anything ι ω) graph plan := by
  refine ⟨h.length_instances, fun hnode ↦ ?_, fun _ ↦ trivial, trivial, fun _ _ _ _ _ ↦ trivial⟩
  obtain ⟨inst, hinst, hseated, husable⟩ := h.exists_instance hnode
  refine ⟨inst, hinst, hseated, ?_⟩
  cases husable with
  | bound hstate hbound => exact .bound hstate hbound trivial
  | ready hstate hbound hform => exact .ready hstate hbound hform trivial trivial

/-- Over the reference implementations, the instance of a place is prepared with a kernel that suits
the extents of the visit. -/
theorem Upholds.visited_suited
    (hregistry : context.specialize.registry.descriptors = referenceDescriptors)
    (h : state.Upholds .suited context.graph plan) (p : Nat) :
    Visited .suited context plan state p (state.visit context p) := by
  have hvisited := h.anything.visited context (Standard.holds_anything _ _ _) p
  generalize state.visit context p = answer at hvisited
  cases hvisited with
  | absent hnode => exact .absent hnode
  | unfit hnode hshapes => exact .unfit hnode hshapes
  | unprepared hnode hseated herror hshapes hinst hprepare =>
    exact .unprepared hnode hseated herror hshapes hinst hprepare
  | @filled node shapes inst _ workspace _ _ _ hnode hshapes hseated _ _ hfill before transition
      hinst hprepare =>
    obtain ⟨other, hother, _, husable⟩ := h.exists_instance hnode
    obtain rfl := Option.some.inj (hinst.symm.trans hother)
    have hprepares := Standard.prepares_suited context.specialize.device hregistry husable h.kept
      shapes
    rw [show (⟨context.specialize.registry, context.specialize.device⟩ :
      SpecializeContext CatalogueImplementation) = context.specialize from rfl, hprepare]
      at hprepares
    exact .filled hnode hshapes hseated (hprepares.ready transition rfl) hprepares.kept hfill hinst
      hprepare

/-- Every place has an instance that can be prepared with a kernel that suits the extents of a
visit, the slots have the types of the plan, and what was computed was counted. -/
structure Bounded (graph : Graph) (plan : MemoryPlan)
    (state : ExecutionState CatalogueImplementation Environment) : Prop where
  upholds : state.Upholds .suited graph plan
  typed : state.pool.Typed plan
  counted : graph.Counted state.extents

/-- The instance that a visit prepares calls its kernel in bounds, whatever the slots hold. -/
theorem inBounds_of_ready {extents : List (Option Dims)}
    {inst : PrimitiveInstance CatalogueImplementation}
    {call : PrimitiveInstance.Dispatch CatalogueImplementation}
    (hnode : context.graph.nodes[p]? = some node)
    (hshapes : context.concreteShapes node extents = .ok shapes)
    (hseated : inst.Seated context.graph plan p node) (hready : Standard.suited.Ready shapes inst)
    (hkind : inst.node.kind ≠ .parameter) (h : inst.dispatch shapes pool = .ok call) :
    call.InBounds := by
  obtain ⟨dims, hderives⟩ := Node.derives_of_concreteShapes hnode hshapes
  obtain rfl := hseated.node_eq
  exact PrimitiveInstance.inBounds_of_dispatch hnode hready hseated.placed hkind hderives h

/-- Unless it poisons the program, a visit keeps the bounds. -/
theorem Visited.bounded (h : Visited .suited context plan state p answer)
    (hstate : state.Bounded context.graph plan) (hharmless : Harmless answer.1) :
    answer.2.Bounded context.graph plan := by
  cases h with
  | absent | unfit => exact hstate
  | unprepared _ _ herror =>
    rw [harmless_error_iff.1 hharmless] at herror
    cases herror
  | @filled node shapes inst inst' workspace result pool env hnode hshapes hseated hready hkept
      hfill =>
    have hframe := PrimitiveInstance.fillFrame_fill shapes context.bindings state.pool
      workspace.environment hready.state_eq hseated.placed.outputSlot_eq
    rw [hfill] at hframe
    refine ⟨hstate.upholds.replace hnode (hframe.same.seated hseated)
      (hframe.ready hready hharmless).usable_suited (hkept.withEnvironment trivial),
      hframe.touches.typed hstate.typed, ?_⟩
    cases result with
    | error error => exact hstate.counted
    | ok _ =>
      intro q other dims hother hkind hdims
      rcases eq_or_ne p q with rfl | hne
      · obtain rfl := Option.some.inj (hnode.symm.trans hother)
        obtain ⟨_, hderives⟩ := Node.derives_of_concreteShapes hnode hshapes
        have hcounted := PrimitiveInstance.counted_of_fill hseated.placed hready.state_eq
          (hseated.node_eq ▸ hkind) (congrArg Prod.fst hfill)
        rw [hderives.outputs_eq] at hcounted hdims
        simp only [List.getElem?_set, if_true] at hdims
        split at hdims
        · obtain rfl := Option.some.inj hdims
          exact hcounted
        · cases hdims
      · simp only [List.getElem?_set_ne hne] at hdims
        exact hstate.counted hother hkind hdims

theorem bounded_visit (hregistry : context.specialize.registry.descriptors = referenceDescriptors)
    (state : ExecutionState CatalogueImplementation Environment) (p : Nat)
    (hstate : state.Bounded context.graph plan) (hok : (state.visit context p).1 = .ok ()) :
    (state.visit context p).2.Bounded context.graph plan :=
  (hstate.upholds.visited_suited hregistry p).bounded hstate (hok ▸ harmless_ok ())

/-- A visit that fails leaves the device intact. -/
theorem Visited.intact (h : Visited .suited context plan state p answer)
    (hstate : state.Bounded context.graph plan) (herror : answer.1 = .error error) :
    error.Intact := by
  cases h with
  | absent => cases herror
  | unfit _ hshapes =>
    obtain rfl := Except.error.inj herror
    exact ExecutionContext.intact_of_concreteShapes hshapes
  | unprepared hnode _ _ _ hinst hprepare =>
    obtain rfl := Except.error.inj herror
    obtain ⟨other, hother, _, husable⟩ := hstate.upholds.exists_instance hnode
    obtain rfl := Option.some.inj (hinst.symm.trans hother)
    exact PrimitiveInstance.intact_of_prepare husable.state_eq (congrArg Prod.fst hprepare)
  | filled hnode hshapes hseated hready _ hfill =>
    exact PrimitiveInstance.intact_of_fill hseated.placed hready.state_eq
      (fun hkind _ _ ↦ inBounds_of_ready hnode hshapes hseated hready hkind)
      ((congrArg Prod.fst hfill).trans herror)

/-! ## Runs -/

/-- How a run goes that keeps an invariant: it ends or is cancelled with the invariant, or a visit
fails in a state that has it. -/
theorem visitAll_cases {ι ω : Type} [Implementation ι ω] {context : ExecutionContext ι}
    (cancelled : Nat → ω → Bool) {Inv : ExecutionState ι ω → Prop}
    (hstep : ∀ state p, Inv state → (state.visit context p).1 = .ok () →
      Inv (state.visit context p).2) (order : List Nat) :
    ∀ (completed : Nat) (state : ExecutionState ι ω), Inv state →
      let answer := state.visitAll context cancelled completed order
      (answer.1 = .ok () ∨ ∃ completed, answer.1 = .error (.aborted completed)) ∧ Inv answer.2 ∨
      ∃ state p error, Inv state ∧ answer.1 = .error error ∧ state.visit context p = answer := by
  induction order with
  | nil => exact fun _ _ hinv ↦ .inl ⟨.inl rfl, hinv⟩
  | cons p order ih =>
    intro completed state hinv
    unfold visitAll
    split
    · exact .inl ⟨.inr ⟨completed, rfl⟩, hinv⟩
    · have hnext := hstep state p hinv
      cases hvisit : state.visit context p with
      | mk result state' =>
        rw [hvisit] at hnext
        cases result with
        | error error => exact .inr ⟨state, p, error, hinv, rfl, hvisit⟩
        | ok _ => exact ih (completed + 1) state' (hnext rfl)

/-- Every visit of a run starts with an invariant that visits keep. -/
theorem forall_visits {ι ω : Type} [Implementation ι ω] {context : ExecutionContext ι}
    (cancelled : Nat → ω → Bool) {Inv : ExecutionState ι ω → Prop}
    (hstep : ∀ state p, Inv state → (state.visit context p).1 = .ok () →
      Inv (state.visit context p).2) (order : List Nat) :
    ∀ (completed : Nat) (state : ExecutionState ι ω), Inv state →
      ∀ visit ∈ state.visits context cancelled completed order,
        visit.context = context ∧ Inv visit.state := by
  induction order with
  | nil => exact fun _ _ _ ↦ List.forall_mem_nil _
  | cons p order ih =>
    intro completed state hinv
    unfold visits
    split
    · exact List.forall_mem_nil _
    · have hnext := hstep state p hinv
      refine List.forall_mem_cons.2 ⟨⟨rfl, hinv⟩, ?_⟩
      generalize state.visit context p = answer at hnext
      obtain ⟨error | _, state'⟩ := answer
      · exact List.forall_mem_nil _
      · exact ih (completed + 1) state' (hnext rfl)

end ExecutionState

/-! ## Visits that run implementations -/

namespace Visit

section

variable {ι ω : Type} [Implementation ι ω] {visit : Visit ι ω}

/-- What a visit runs, if it gets so far. -/
def dispatch? (visit : Visit ι ω) : Option (PrimitiveInstance.Dispatch ι) := do
  let inst ← visit.state.instances[visit.place]?
  let shapes ← (visit.context.concreteShapes inst.node visit.state.extents).toOption
  match inst.prepare shapes visit.context.specialize visit.state.workspace with
  | (.error _, _) => none
  | (.ok _, prepared, _) =>
    if prepared.node.kind.isExecutable then prepared.dispatch? shapes visit.state.pool else none

/-- How a visit comes to run an implementation. -/
theorem prepare_of_dispatch? {call : PrimitiveInstance.Dispatch ι}
    (h : visit.dispatch? = some call) :
    ∃ inst shapes transition prepared workspace,
      visit.state.instances[visit.place]? = some inst ∧
      visit.context.concreteShapes inst.node visit.state.extents = .ok shapes ∧
      inst.prepare shapes visit.context.specialize visit.state.workspace =
        (.ok transition, prepared, workspace) ∧
      prepared.node.kind.isExecutable = true ∧
      prepared.dispatch? shapes visit.state.pool = some call := by
  obtain ⟨inst, hinst, h⟩ := Option.bind_eq_some_iff.1 h
  obtain ⟨shapes, hshapes, h⟩ := Option.bind_eq_some_iff.1 h
  cases hprepare : inst.prepare shapes visit.context.specialize visit.state.workspace with
  | mk result answer =>
    obtain ⟨prepared, workspace⟩ := answer
    rw [hprepare] at h
    cases result with
    | error error => cases h
    | ok transition =>
      simp only at h
      split at h
      · rename_i hkind
        exact ⟨inst, shapes, transition, prepared, workspace, hinst, toOption_eq_some_iff.1 hshapes,
          hprepare, hkind, h⟩
      · cases h

/-- The visit of a node that is computed ends as the implementation does that it runs, or it runs none
and fails. -/
def EndsAsRun (visit : Visit ι ω) (node : Node) : Prop :=
  let result := (visit.state.visit visit.context visit.place).1
  (∃ call shapes env, visit.dispatch? = some call ∧ result =
    (Implementation.execute call.implementation call.inputs [call.output] env).1.mapError
      fun fault ↦ .executionFailure node.id node.kind shapes
        (PrimitiveInstance.faultError (Implementation.name call.implementation) fault)) ∨
  visit.dispatch? = none ∧ ∃ error, result = .error error

theorem endsAsRun {node : Node}
    (hstate : visit.state.Upholds (.anything ι ω) visit.context.graph plan)
    (hnode : visit.context.graph.nodes[visit.place]? = some node)
    (hkind : node.kind.isExecutable = true) : visit.EndsAsRun node := by
  have hvisited := hstate.visited visit.context (Standard.holds_anything _ _ _) visit.place
  unfold EndsAsRun
  generalize visit.state.visit visit.context visit.place = answer at hvisited
  obtain ⟨inst, hinst, hseated, _⟩ := hstate.exists_instance hnode
  obtain rfl := hseated.node_eq
  cases hvisited with
  | absent habsent =>
    rw [habsent] at hnode
    cases hnode
  | @unfit node error hother hshapes =>
    obtain rfl := Option.some.inj (hnode.symm.trans hother)
    have hnone : visit.dispatch? = none := by
      simp only [dispatch?, hinst, hshapes, Except.toOption, Option.bind_eq_bind, Option.bind_some,
        Option.bind_none]
    exact .inr ⟨hnone, error, rfl⟩
  | @unprepared node shapes error before prepared workspace hother _ _ hshapes hbefore hprepare =>
    obtain rfl := Option.some.inj (hnode.symm.trans hother)
    obtain rfl := Option.some.inj (hinst.symm.trans hbefore)
    have hnone : visit.dispatch? = none := by
      simp only [dispatch?, hinst, hshapes, Except.toOption, Option.bind_eq_bind, Option.bind_some,
        hprepare]
    exact .inr ⟨hnone, error, rfl⟩
  | @filled node shapes prepared _ workspace result _ _ hother hshapes hseated' hready _ hfill
      before transition hbefore hprepare =>
    obtain rfl := Option.some.inj (hnode.symm.trans hother)
    obtain rfl := Option.some.inj (hinst.symm.trans hbefore)
    have hsame : prepared.node = inst.node := hseated'.node_eq
    have hdispatch : visit.dispatch? = prepared.dispatch? shapes visit.state.pool := by
      simp only [dispatch?, hinst, hshapes, Except.toOption, Option.bind_eq_bind, Option.bind_some,
        hprepare, hsame, hkind, if_true]
    rw [PrimitiveInstance.fill_eq_execute (hsame.symm ▸ hkind)] at hfill
    rcases PrimitiveInstance.execute_cases shapes visit.state.pool workspace.environment
      hseated'.placed hready.state_eq with ⟨call, hcall, hends⟩ | ⟨hnone, error, hfails, _⟩
    · simp only [hfill, PrimitiveInstance.executionFailure, hsame] at hends
      exact .inl ⟨call, shapes.all, workspace.environment, hdispatch.trans hcall, hends⟩
    · rw [hfill] at hfails
      exact .inr ⟨hdispatch.trans hnone, error, hfails⟩

end

/-- Whatever a visit runs stays in bounds. -/
theorem inBounds {visit : Visit CatalogueImplementation Environment}
    (hregistry : visit.context.specialize.registry.descriptors = referenceDescriptors)
    (hstate : visit.state.Upholds .suited visit.context.graph plan)
    {call : PrimitiveInstance.Dispatch CatalogueImplementation} (h : visit.dispatch? = some call) :
    call.InBounds := by
  obtain ⟨inst, shapes, transition, prepared, workspace, hinst, hshapes, hprepare, hkind, hcall⟩ :=
    prepare_of_dispatch? h
  have hlt := (List.getElem?_eq_some_iff.1 hinst).1
  rw [hstate.length_instances] at hlt
  obtain ⟨node, hnode⟩ := visit.context.graph.exists_node hlt
  obtain ⟨other, hother, hseated, husable⟩ := hstate.exists_instance hnode
  obtain rfl := Option.some.inj (hinst.symm.trans hother)
  have hprepares : Standard.suited.Prepares shapes inst (.ok transition, prepared, workspace) :=
    hprepare ▸ Standard.prepares_suited visit.context.specialize.device hregistry husable
      hstate.kept shapes
  obtain ⟨_, _, hdispatch⟩ := PrimitiveInstance.dispatch_of_dispatch? hcall
  rw [hseated.node_eq] at hshapes
  refine ExecutionState.inBounds_of_ready hnode hshapes (hprepares.same.seated hseated)
    (hprepares.ready transition rfl) (fun hparameter ↦ ?_) hdispatch
  rw [hparameter] at hkind
  cases hkind

end Visit

end TensorEngine
