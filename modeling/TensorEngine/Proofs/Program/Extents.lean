import TensorEngine.Proofs.Graph.Building
import TensorEngine.Proofs.Program.Resting
import TensorEngine.Proofs.Stream.Interleaving

/-!
# Extents stay within declared shapes

When declared layouts are those that the operations derive, the extents of a call stay within the
declared shapes of their own accord.  A call fails over extents for two reasons only: a parameter is
bound to a value outside its declared shape, or a result has more elements than a word can count.
-/

namespace TensorEngine

variable {ι ω : Type} {graph : Graph} {plan : MemoryPlan} {p : Nat} {node : Node} {id : NodeId}
  {expected : Shape} {actual : Dims} {inputs : List Dims} {bindings : Bindings}
  {extents : List (Option Dims)}

namespace Graph

/-- A parameter is bound to a value whose extents its declared shape does not accept. -/
def BoundOutside (graph : Graph) (bindings : Bindings) (id : NodeId) (expected : Shape)
    (actual : Dims) : Prop :=
  ∃ node ∈ graph.parameters, node.id = id ∧ node.output.shape = expected ∧
    expected.accepts actual = false ∧ ∃ binding, bindings id = some binding ∧ binding.dims = actual

/-- The extents that an executable node derives from accepted operands are within its declared
shape, but their elements are more than a word can count. -/
def Uncountable (graph : Graph) (id : NodeId) (expected : Shape) (actual : Dims) : Prop :=
  ∃ node ∈ graph.nodes, node.id = id ∧ node.output.shape = expected ∧ node.kind.isExecutable ∧
    elementCount? actual = none ∧ expected.accepts actual ∧
    ∃ inputs, Layout.AllAccept (graph.inputLayouts node) inputs ∧
      node.op.outputDims inputs = .ok actual

/-- What a failure over extents says about graph and bindings; other failures say nothing. -/
def Explains (graph : Graph) (bindings : Bindings) : RuntimeError → Prop
  | .shapeOutOfRange id expected actual =>
    graph.BoundOutside bindings id expected actual ∨ graph.Uncountable id expected actual
  | _ => True

/-- All extents that are known are within the declared shapes. -/
def Within (graph : Graph) (extents : List (Option Dims)) : Prop :=
  ∀ (p : Nat) (node : Node) (dims : Dims), graph.nodes[p]? = some node →
    extents[p]?.join = some dims → node.output.shape.accepts dims

/-- Before any visit nothing is known. -/
theorem within_replicate : graph.Within (List.replicate graph.size none) := by
  intro p node dims _ hdims
  rw [List.getElem?_replicate] at hdims
  split at hdims <;> cases hdims

/-- Operands of known extents are accepted by their declared layouts. -/
theorem Within.allAccept (h : graph.Within extents) (hnode : graph.nodes[p]? = some node)
    (hinputs : List.Forall₂ (fun q dims ↦ extents[q]?.join = some dims) (graph.producers node)
      inputs) : Layout.AllAccept (graph.inputLayouts node) inputs := by
  refine forall₂_trans (List.Forall₂.flip (R := fun layout q ↦
    ∃ other, graph.nodes[q]? = some other ∧ other.output = layout) (inputLayouts_eq hnode))
    hinputs ?_
  rintro _ q dims ⟨other, hother, rfl⟩ hdims
  exact h q other dims hother hdims

/-- What a node derives from known extents is within its declared shape. -/
theorem Within.accepts (h : graph.Within extents) (hderived : graph.Derived)
    (hnode : graph.nodes[p]? = some node) (hkind : node.kind ≠ .parameter)
    (hinputs : List.Forall₂ (fun q dims ↦ extents[q]?.join = some dims) (graph.producers node)
      inputs) (hdims : node.op.outputDims inputs = .ok actual) :
    node.output.shape.accepts actual :=
  (OpSpec.abstracts (h.allAccept hnode hinputs)).sound _ _
    ((hderived node (List.mem_of_getElem? hnode)).resolve_left hkind) hdims

/-- Another place with accepted extents. -/
theorem Within.set (h : graph.Within extents) (hnode : graph.nodes[p]? = some node)
    (haccepts : node.output.shape.accepts actual) :
    graph.Within (extents.set p (some actual)) := by
  intro q other dims hother hdims
  rcases eq_or_ne p q with rfl | hne
  · obtain rfl := Option.some.inj (hnode.symm.trans hother)
    rw [List.getElem?_set] at hdims
    split at hdims
    · split at hdims <;> cases hdims
      exact haccepts
    · exact h p node dims hnode hdims
  · rw [List.getElem?_set_ne hne] at hdims
    exact h q other dims hother hdims

end Graph

/-! ## Failures over extents -/

/-- A visit has no extents outside its declared shape but those of a bound value. -/
theorem ExecutionContext.boundOutside_of_concreteShapes {context : ExecutionContext ι}
    (hderived : context.graph.Derived) (hwithin : context.graph.Within extents)
    (hnode : context.graph.nodes[p]? = some node)
    (h : context.concreteShapes node extents = .error (.shapeOutOfRange id expected actual)) :
    context.graph.BoundOutside context.bindings id expected actual := by
  unfold concreteShapes at h
  rcases bind_eq_error_iff.1 h with h | ⟨inputs, hinputs, h⟩
  · obtain ⟨_, _, h⟩ := mapM_eq_error h
    split at h <;> cases h
  rw [operandDims_eq_ok hnode] at hinputs
  rcases bind_eq_error_iff.1 h with h | ⟨dims, hdims, h⟩
  · unfold resultDims at h
    split at h
    · split at h <;> cases h
    · obtain ⟨_, _, h⟩ := mapError_eq_error_iff.1 h
      cases h
  split at h <;> cases h
  rename_i hrefused
  by_cases hkind : node.kind = .parameter
  · rw [resultDims, if_pos hkind] at hdims
    cases hbinding : context.bindings node.id with
    | none => simp [hbinding] at hdims
    | some binding =>
      rw [hbinding] at hdims
      cases hdims
      exact ⟨node, List.mem_filter.2 ⟨List.mem_of_getElem? hnode, decide_eq_true hkind⟩, rfl, rfl,
        Bool.eq_false_iff.2 hrefused, binding, hbinding, rfl⟩
  · rw [resultDims_eq_ok_iff hkind] at hdims
    exact absurd (hwithin.accepts hderived hnode hkind hinputs hdims) hrefused

namespace PrimitiveInstance

variable {inst : PrimitiveInstance ι} {shapes : ConcreteShapes} {pool : MemoryPool}
  {slot : Nat}

theorem copyBinding_ne_shapeOutOfRange {binding : HostTensor} :
    inst.copyBinding binding slot pool ≠ .error (.shapeOutOfRange id expected actual) := by
  intro h
  unfold copyBinding at h
  rcases bind_eq_error_iff.1 h with h | ⟨_, _, h⟩
  · obtain ⟨_, _, h⟩ := mapError_eq_error_iff.1 h
    cases h
  · rcases bind_eq_error_iff.1 h with h | ⟨_, _, h⟩
    · obtain ⟨_, _, h⟩ := mapError_eq_error_iff.1 h
      cases h
    · cases h

theorem writeBinding_ne_shapeOutOfRange (hslot : inst.outputSlot = some slot) :
    (inst.writeBinding bindings pool).1 ≠ .error (.shapeOutOfRange id expected actual) := by
  have hresult : inst.resultSlot = .ok slot := by rw [resultSlot, hslot]
  intro h
  simp only [writeBinding, hresult, reserve] at h
  cases hbinding : bindings inst.node.id with
  | none => simp [hbinding] at h
  | some binding =>
    simp only [hbinding] at h
    cases hroom : pool.ensureCapacity slot binding.size with
    | error refused => simp [hroom, AllocationError.toRuntime] at h
    | ok answer =>
      obtain ⟨grew, pool'⟩ := answer
      simp only [hroom] at h
      cases hcopy : inst.copyBinding binding slot pool' with
      | ok _ => simp [hcopy] at h
      | error error =>
        simp only [hcopy, Except.error.injEq] at h
        exact copyBinding_ne_shapeOutOfRange (hcopy.trans (congrArg _ h))

variable [Implementation ι ω] {env : ω}

/-- Running an implementation fails over extents only when there are more elements than a word can
count. -/
theorem uncountable_of_execute (hstate : inst.state = .ready) (hslot : inst.outputSlot = some slot)
    (h : (inst.execute shapes pool env).1 = .error (.shapeOutOfRange id expected actual)) :
    inst.node.id = id ∧ inst.node.output.shape = expected ∧
      shapes.outputs.headD [] = actual ∧ elementCount? actual = none := by
  have hresult : inst.resultSlot = .ok slot := by rw [resultSlot, hslot]
  simp only [execute, target] at h
  cases hcount : elementCount? (shapes.outputs.headD []) with
  | none =>
    simp only [hcount, throw_eq_error, Except.error.injEq, RuntimeError.shapeOutOfRange.injEq] at h
    obtain ⟨rfl, rfl, rfl⟩ := h
    exact ⟨rfl, rfl, rfl, hcount⟩
  | some count =>
    simp only [hcount, hresult, ok_bind, pure_eq_ok, reserve] at h
    cases hroom : pool.ensureCapacity slot count with
    | error refused => simp [hroom, AllocationError.toRuntime] at h
    | ok answer =>
      obtain ⟨_, pool'⟩ := answer
      simp only [hroom, beginExecute, hstate, if_true] at h
      generalize (inst.withState .executing).runKernel shapes pool' env = answer at h
      obtain ⟨source | _, _, _⟩ := answer <;> cases h

/-- Filling a slot fails over extents only where an implementation is run. -/
theorem uncountable_of_fill (hstate : inst.state = .ready) (hslot : inst.outputSlot = some slot)
    (h : (inst.fill shapes bindings pool env).1 = .error (.shapeOutOfRange id expected actual)) :
    inst.node.kind.isExecutable ∧ inst.node.id = id ∧ inst.node.output.shape = expected ∧
      shapes.outputs.headD [] = actual ∧ elementCount? actual = none := by
  unfold fill at h
  cases hkind : inst.node.kind with
  | parameter =>
    rw [hkind] at h
    exact absurd h (writeBinding_ne_shapeOutOfRange hslot)
  | constant | reshape =>
    rw [hkind] at h
    cases h
  | elementwiseBinary | elementwiseUnary | matMul | reduce | reorder =>
    rw [hkind] at h
    exact ⟨rfl, uncountable_of_execute hstate hslot h⟩

end PrimitiveInstance

/-! ## Visits and runs -/

namespace ExecutionState

variable [Implementation ι ω] {standard : Standard ι ω} {context : ExecutionContext ι}
  {state : ExecutionState ι ω} {answer : Except RuntimeError Unit × ExecutionState ι ω}

/-- A visit keeps the known extents within the declared shapes. -/
theorem Visited.within (h : Visited standard context plan state p answer)
    (hwithin : context.graph.Within state.extents) : context.graph.Within answer.2.extents := by
  cases h with
  | absent | unfit | unprepared => exact hwithin
  | @filled node shapes _ _ _ result _ _ hnode hshapes =>
    cases result with
    | error error => exact hwithin
    | ok _ =>
      obtain ⟨inputs, dims, rfl, _, _, haccepts⟩ :=
        (ExecutionContext.concreteShapes_eq_ok_iff hnode).1 hshapes
      exact hwithin.set hnode haccepts

/-- A visit that fails over extents is one to a parameter that is bound outside its shape, or to a
node with more elements than a word can count. -/
theorem Visited.explains (h : Visited standard context plan state p answer)
    (hderived : context.graph.Derived) (hwithin : context.graph.Within state.extents)
    {error : RuntimeError} (herror : answer.1 = .error error) :
    context.graph.Explains context.bindings error := by
  unfold Graph.Explains
  split
  swap
  · trivial
  cases h with
  | absent => cases herror
  | unfit hnode hshapes =>
    obtain rfl := Except.error.inj herror
    exact .inl (ExecutionContext.boundOutside_of_concreteShapes hderived hwithin hnode hshapes)
  | unprepared _ _ hpoisons =>
    obtain rfl := Except.error.inj herror
    cases hpoisons
  | @filled node shapes inst _ _ _ _ _ hnode hshapes hseated hready _ hfill =>
    obtain ⟨inputs, dims, rfl, hinputs, hdims, haccepts⟩ :=
      (ExecutionContext.concreteShapes_eq_ok_iff hnode).1 hshapes
    obtain ⟨hkind, rfl, rfl, rfl, hcount⟩ := PrimitiveInstance.uncountable_of_fill
      hready.state_eq hseated.placed.outputSlot_eq ((congrArg Prod.fst hfill).trans herror)
    rw [hseated.node_eq] at hkind ⊢
    have hderive := OperationKind.ne_parameter_of_isExecutable hkind
    exact .inr ⟨node, List.mem_of_getElem? hnode, rfl, rfl, hkind, hcount, haccepts, inputs,
      hwithin.allAccept hnode hinputs, (ExecutionContext.resultDims_eq_ok_iff hderive).1 hdims⟩

/-- A run over places in any order fails over extents for the same reasons. -/
theorem explains_visitAll
    (hholds : standard.Holds context.graph context.specialize.registry context.specialize.device)
    (hderived : context.graph.Derived) (cancelled : Nat → ω → Bool) {error : RuntimeError}
    (order : List Nat) :
    ∀ (completed : Nat) (state : ExecutionState ι ω), state.Upholds standard context.graph plan →
      context.graph.Within state.extents →
      (state.visitAll context cancelled completed order).1 = .error error →
      context.graph.Explains context.bindings error := by
  induction order with
  | nil => exact fun _ _ _ _ h ↦ absurd h.symm error_ne_ok
  | cons p order ih =>
    intro completed state hstate hwithin h
    rw [visitAll] at h
    split at h
    · cases h
      trivial
    have hvisited := hstate.visited context hholds p
    have hupholds := hvisited.upholds hholds hstate
    have hwithin' := hvisited.within hwithin
    have hexplains : (state.visit context p).1 = .error error →
        context.graph.Explains context.bindings error := hvisited.explains hderived hwithin
    generalize state.visit context p = answer at h hupholds hwithin' hexplains
    obtain ⟨_ | _, state'⟩ := answer
    · exact hexplains h
    · exact ih (completed + 1) state' (hupholds (harmless_ok _)) hwithin' h

end ExecutionState

namespace StreamRun

variable [Implementation ι ω] {standard : Standard ι ω} {context : ExecutionContext ι}
  {schedule : StreamSchedule} {run run' : StreamRun ι ω}

/-- Until the first failure all instances can be prepared and all known extents are within the
declared shapes; and a failure over extents has one of the two reasons. -/
structure Contained (standard : Standard ι ω) (context : ExecutionContext ι) (plan : MemoryPlan)
    (run : StreamRun ι ω) : Prop where
  upholds : run.failure = none → run.state.Upholds standard context.graph plan
  within : run.failure = none → context.graph.Within run.state.extents
  explains : ∀ error, run.failure = some error → context.graph.Explains context.bindings error

/-- The steps of the streams keep a run contained. -/
theorem Contained.step (h : run.Contained standard context plan)
    (hholds : standard.Holds context.graph context.specialize.registry context.specialize.device)
    (hderived : context.graph.Derived) (hstep : Step context schedule run run') :
    run'.Contained standard context plan := by
  cases hstep with
  | enter | halt | forsake => exact ⟨h.upholds, h.within, h.explains⟩
  | @complete _ _ p _ _ _ hvisit =>
    refine ⟨fun hnone ↦ ?_, fun hnone ↦ ?_, h.explains⟩
    all_goals
      have hvisited := (h.upholds hnone).visited context hholds p
      rw [hvisit] at hvisited
    · exact hvisited.upholds hholds (h.upholds hnone) (harmless_ok _)
    · exact hvisited.within (h.within hnone)
  | @fail _ _ p error _ _ _ hvisit =>
    refine ⟨nofun, nofun, fun other hother ↦ ?_⟩
    obtain rfl : run.failure.getD error = other := Option.some.inj hother
    cases hfirst : run.failure with
    | some first => exact h.explains first hfirst
    | none =>
      have hvisited := (h.upholds hfirst).visited context hholds p
      rw [hvisit] at hvisited
      exact hvisited.explains hderived (h.within hfirst) rfl

theorem Leads.contained (hleads : Leads context schedule run run')
    (h : run.Contained standard context plan)
    (hholds : standard.Holds context.graph context.specialize.registry context.specialize.device)
    (hderived : context.graph.Derived) : run'.Contained standard context plan := by
  induction hleads with
  | refl => exact h
  | tail _ hstep ih => exact ih.step hholds hderived hstep

end StreamRun

/-! ## Calls -/

namespace Program

variable [Implementation ι ω] {program : Program ι} {standard : Standard ι ω}
  {cancelled : Nat → ω → Bool} {session : Session ω}

/-- Bindings that were checked are within the declared shapes of the parameters. -/
theorem not_boundOutside (h : program.checkBindings bindings = .ok ()) :
    ¬program.graph.BoundOutside bindings id expected actual := by
  rintro ⟨node, hmem, rfl, rfl, hrefused, binding, hbinding, rfl⟩
  have hcheck := forM_eq_ok_iff.1 h node hmem
  unfold checkBinding at hcheck
  simp only [hbinding, hrefused] at hcheck
  split at hcheck <;> cases hcheck

/-- Bindings that are refused over extents are outside the declared shape of a parameter. -/
theorem boundOutside_of_checkBindings
    (h : program.checkBindings bindings = .error (.shapeOutOfRange id expected actual)) :
    program.graph.BoundOutside bindings id expected actual := by
  obtain ⟨node, hmem, hcheck⟩ := forM_eq_error h
  unfold checkBinding at hcheck
  split at hcheck
  · cases hcheck
  rename_i binding hbinding
  split at hcheck
  · cases hcheck
  split at hcheck <;> cases hcheck
  rename_i hrefused
  exact ⟨node, hmem, rfl, rfl, Bool.eq_false_iff.2 hrefused, binding, hbinding, rfl⟩

theorem readOutput_ne_shapeOutOfRange {output : NodeId} :
    program.readOutput extents output ≠ .error (.shapeOutOfRange id expected actual) := by
  intro h
  rcases of_readOutput_eq_error h with ⟨_, h⟩ | ⟨_, _, _, _, _, _, h⟩ | ⟨_, _, _, h⟩ | ⟨_, _, _, h⟩
  all_goals cases h

/-- An execution fails over extents for one of two reasons: its bindings are refused, or a result
has more elements than a word can count. -/
theorem Upheld.explains_execute (h : program.Upheld standard)
    (hderived : program.graph.Derived)
    (herror : (program.execute bindings cancelled session).1 =
      .error (.shapeOutOfRange id expected actual)) :
    program.checkBindings bindings = .error (.shapeOutOfRange id expected actual) ∧
        program.graph.BoundOutside bindings id expected actual ∨
      program.graph.Uncountable id expected actual := by
  unfold Program.execute at herror
  cases hpoison : program.poison with
  | some poison =>
    rw [hpoison] at herror
    cases herror
  | none =>
    cases hbindings : program.checkBindings bindings with
    | error error =>
      simp only [hpoison, hbindings, Except.error.injEq] at herror
      subst herror
      exact .inl ⟨rfl, boundOutside_of_checkBindings hbindings⟩
    | ok _ =>
      refine .inr ?_
      simp only [hpoison, hbindings] at herror
      cases hrun : (program.executionState session).run (program.context bindings) cancelled with
      | mk result state =>
        rw [hrun] at herror
        cases result with
        | error error =>
          have hexplains : program.graph.Explains bindings error :=
            ExecutionState.explains_visitAll h.holds hderived cancelled _ 0 _
              (h.runnable hpoison session) Graph.within_replicate (congrArg Prod.fst hrun)
          obtain rfl := Except.error.inj herror
          exact hexplains.resolve_left (not_boundOutside hbindings)
        | ok _ =>
          obtain ⟨_, _, h⟩ := mapM_eq_error herror
          exact absurd h readOutput_ne_shapeOutOfRange

/-- Nor does any interleaving of its streams fail over extents for another reason. -/
theorem Upheld.uncountable_of_leads (h : program.Upheld standard)
    (hderived : program.graph.Derived) (hpoison : program.poison = none)
    (hbindings : program.checkBindings bindings = .ok ()) {run : StreamRun ι ω}
    (hleads : StreamRun.Leads (program.context bindings) program.schedule
      (.start program.schedule (program.executionState session)) run)
    (herror : run.failure = some (.shapeOutOfRange id expected actual)) :
    program.graph.Uncountable id expected actual := by
  have hstart : (StreamRun.start program.schedule (program.executionState session)).Contained
      standard (program.context bindings) program.plan :=
    ⟨fun _ ↦ h.runnable hpoison session, fun _ ↦ Graph.within_replicate, nofun⟩
  exact ((hleads.contained hstart h.holds hderived).explains _ herror).resolve_left
    (not_boundOutside hbindings)

variable {calls : List BuilderCall} {ids outputs : List NodeId} {builder : GraphBuilder}

/-- Whatever calls a builder has answered, the nodes that it named are a graph with any of them as
outputs.  No program of this graph ever finds derived extents outside a declared shape: executions,
in whatever order their streams take their steps, fail over extents only when a parameter is bound
outside its declared shape, which is refused in front of the run, or when the elements of a result
are more than a word can count. -/
theorem builder_graph_stays_within (hcalls : GraphBuilder.perform {} calls = .ok (ids, builder))
    (hcount : calls.length < UInt32.size) (hne : outputs ≠ []) (hids : outputs ⊆ ids) :
    ∃ graph, builder.finish? outputs = .ok graph ∧
      ∀ (registry : Registry ι) (device : DeviceCaps) (config : RuntimeConfig)
        (store after : Option ArtifactStore) (session session' : Session ω)
        (program program' : Program ι),
        build graph registry device config store session = (.ok program, after, session') →
        program.Evolves ω program' →
        ∀ (bindings : Bindings) (id : NodeId) (expected : Shape) (actual : Dims)
          (session : Session ω),
          (∀ cancelled, (program'.execute bindings cancelled session).1 =
              .error (.shapeOutOfRange id expected actual) →
            program'.checkBindings bindings = .error (.shapeOutOfRange id expected actual) ∧
                graph.BoundOutside bindings id expected actual ∨
              graph.Uncountable id expected actual) ∧
          (program'.poison = none → program'.checkBindings bindings = .ok () →
            ∀ run, StreamRun.Leads (program'.context bindings) program'.schedule
                (.start program'.schedule (program'.executionState session)) run →
              run.failure = some (.shapeOutOfRange id expected actual) →
              graph.Uncountable id expected actual) := by
  obtain ⟨graph, hfinish, hderived⟩ :=
    GraphBuilder.exists_graph_of_perform hcalls (Nat.le_of_lt hcount) hne hids
  refine ⟨graph, hfinish, ?_⟩
  intro registry device config store after session session' program program' hbuild hevolves
    bindings id expected actual session
  obtain ⟨hupheld, hfrom⟩ := upheld_of_build (Standard.holds_anything graph registry device)
    (fun _ ↦ trivial) (Standard.restores_anything graph registry device) (fun _ ↦ trivial) hbuild
  obtain ⟨hcompiled, hupheld'⟩ := hevolves.upheld (Standard.holds_anything graph registry device)
    (fun _ ↦ trivial) (Standard.restores_anything graph registry device) (fun _ ↦ trivial)
    hfrom.compiledFor hupheld
  obtain rfl := hcompiled.graph_eq
  exact ⟨fun cancelled ↦ hupheld'.explains_execute hderived,
    fun hpoison hbindings run hleads ↦
      hupheld'.uncountable_of_leads hderived hpoison hbindings hleads⟩

/-- Two matrices of any extents and their product. -/
def productCalls : List BuilderCall :=
  [.parameter (OpSpec.matrixLayout .unbounded .unbounded),
    .parameter (OpSpec.matrixLayout .unbounded .unbounded),
    .add (.matMul ⟨false, false⟩) [⟨0⟩, ⟨1⟩]]

def productGraph : Graph where
  nodes := [
    ⟨⟨0⟩, .parameter, [], [OpSpec.matrixLayout .unbounded .unbounded]⟩,
    ⟨⟨1⟩, .parameter, [], [OpSpec.matrixLayout .unbounded .unbounded]⟩,
    ⟨⟨2⟩, .matMul ⟨false, false⟩, [⟨0⟩, ⟨1⟩], [OpSpec.matrixLayout .unbounded .unbounded]⟩]
  outputs := [⟨2⟩]
  valid := by rfl

/-- A matrix without columns and one without rows. -/
def emptyFactors : Bindings :=
  .ofList [(⟨0⟩, ⟨[0x10000000000, 0], .f32 #[]⟩), (⟨1⟩, ⟨[0, 0x10000000000], .f32 #[]⟩)]

/-- The product of two matrices without elements has `2 ^ 80` elements.  Its extents are within the
declared shape; it is their number that is refused. -/
theorem builder_graph_stays_within_product : ∃ builder program,
    GraphBuilder.perform {} productCalls = .ok ([⟨0⟩, ⟨1⟩, ⟨2⟩], builder) ∧
    builder.finish? [⟨2⟩] = .ok productGraph ∧
    (build productGraph referenceRegistry openDevice {} none freshSession).1.toOption =
      some program ∧
    (program.execute emptyFactors never freshSession).1 = .error (.shapeOutOfRange ⟨2⟩
      ⟨[.unbounded, .unbounded]⟩ [0x10000000000, 0x10000000000]) ∧
    productGraph.Uncountable ⟨2⟩ ⟨[.unbounded, .unbounded]⟩ [0x10000000000, 0x10000000000] := by
  have hcalls : GraphBuilder.perform {} productCalls =
      .ok ([⟨0⟩, ⟨1⟩, ⟨2⟩], ⟨productGraph.nodes⟩) := rfl
  have herror : ((build productGraph referenceRegistry openDevice {} none
      freshSession).1.toOption.map fun program ↦
        (program.execute emptyFactors never freshSession).1) =
      some (.error (.shapeOutOfRange ⟨2⟩ ⟨[.unbounded, .unbounded]⟩
        [0x10000000000, 0x10000000000])) := by
    decide +kernel
  obtain ⟨program, hprogram, herror⟩ := Option.map_eq_some_iff.1 herror
  obtain ⟨graph, hfinish, hstays⟩ := @builder_graph_stays_within CatalogueImplementation Environment
    _ _ _ _ _ hcalls (by decide) (List.cons_ne_nil ⟨2⟩ []) (by decide)
  obtain rfl : productGraph = graph :=
    Except.ok.inj ((Graph.ofNodes?_eq_ok productGraph.valid).symm.trans hfinish)
  have hblame := (hstays referenceRegistry openDevice {} none _ freshSession _ program program
    (Prod.ext (toOption_eq_some_iff.1 hprogram) rfl) .refl emptyFactors _ _ _ freshSession).1 never
    herror
  have hparameters : ∀ node ∈ productGraph.parameters, node.id ≠ ⟨2⟩ := by decide
  refine ⟨_, program, hcalls, hfinish, hprogram, herror, hblame.resolve_left ?_⟩
  rintro ⟨_, node, hmem, hid, _⟩
  exact hparameters node hmem hid

end Program

end TensorEngine
