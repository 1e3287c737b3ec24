import TensorEngine.Proofs.Execution.Within
import TensorEngine.Proofs.Program.Statistics

/-!
# Programs within words and slots

Over the reference implementations alone, no call of a program multiplies extents beyond a word or
asks for an element that its operand does not have, with one exception.  The extents of a parameter
or of a constant are counted by nobody before the output is read; when it is an output of the graph,
the call may break down at their product.
-/

namespace TensorEngine

open CatalogueImplementation

variable {graph : Graph} {registry : Registry CatalogueImplementation} {device : DeviceCaps}
  {config : RuntimeConfig} {node : Node} {dims : Dims} {id : NodeId} {bindings : Bindings}
  {error : RuntimeError}

/-! ## Extents of values -/

namespace Node

/-- The extents that come with a value: that of a parameter or of a constant. -/
def ownDims? (node : Node) (bindings : Bindings) : Option Dims :=
  match node.op with
  | .parameter => (bindings node.id).map HostTensor.dims
  | .constant tensor => some tensor.dims
  | _ => none

/-- Extents that do not come with a value were counted, by a reshape or before a computation. -/
theorem isSome_elementCount? {inputs : List Dims} (h : node.extents? bindings inputs = some dims)
    (hown : node.ownDims? bindings ≠ some dims)
    (hcomputed : node.kind.isExecutable = true → (elementCount? dims).isSome = true) :
    (elementCount? dims).isSome = true := by
  rcases node.op_cases with hop | ⟨tensor, hop⟩ | ⟨target, hop⟩ | hkind
  · simp only [extents?, kind, hop, OpSpec.kind, if_true] at h
    simp only [ownDims?, hop] at hown
    exact absurd h hown
  · have hkind : node.kind = .constant := by rw [kind, hop]; rfl
    rw [extents?_eq_some_iff (by rw [hkind]; decide), hop] at h
    simp only [ownDims?, hop] at hown
    cases inputs with
    | nil => exact absurd (congrArg some (Except.ok.inj h)) hown
    | cons input inputs => cases h
  · have hkind : node.kind = .reshape := by rw [kind, hop]; rfl
    rw [extents?_eq_some_iff (by rw [hkind]; decide), hop] at h
    cases inputs with
    | nil => cases h
    | cons input inputs =>
      cases inputs with
      | nil =>
        obtain ⟨_, _, hcount⟩ := elementCount?_reshape h
        rw [hcount]
        rfl
      | cons other inputs => cases h
  · exact hcomputed hkind

end Node

/-! ## Building -/

namespace Standard

theorem restores_suited (hregistry : registry.descriptors = referenceDescriptors) :
    suited.Restores graph registry device := by
  intro node _ blob env env' id descriptor form implementation hreads
  have hform := suited_of_readsBack hregistry hreads
  exact ⟨hform.2.1, hform⟩

end Standard

/-- What is bound for a node and finalized at once has a kernel that suits its extents. -/
theorem BuildState.bindInstance_suited (hregistry : registry.descriptors = referenceDescriptors)
    {state : BuildState CatalogueImplementation Environment} {declared : List Layout}
    (hkept : Standard.suited.Kept state.workspace) :
    let answer := state.bindInstance node declared ⟨registry, device⟩
    Standard.suited.Kept answer.2.workspace ∧ ∀ inst, answer.1 = .ok inst →
      inst.node = node ∧ inst.declaredInputs = declared ∧ Standard.suited.Usable inst := by
  have hnew : ∀ inst, NewlyBound registry device node declared inst →
      Standard.suited.Usable inst := by
    rintro inst ⟨_, _, hstate, bound, hbound, hoffers⟩
    exact .bound hstate hbound (BoundImplementation.isReference_of_offers hregistry hoffers)
  exact bindInstance_prepares hnew
    (fun inst shapes h ↦ Standard.prepares_suited device hregistry (hnew inst h) hkept shapes)
    (fun _ _ _ hready ↦ hready.usable_suited) hkept

namespace Program

variable {program program' : Program CatalogueImplementation}

/-- The plan is safe and, unless the program is poisoned, a run can start within bounds. -/
structure Suited (program : Program CatalogueImplementation) : Prop where
  safe : program.plan.Safe program.graph program.config.streamCount
  bounded : program.poison = none → ∀ session : Session Environment,
    (program.executionState session).Bounded program.graph program.plan

theorem counted_executionState (program : Program CatalogueImplementation)
    (session : Session Environment) :
    program.graph.Counted (program.executionState session).extents := by
  intro p _ _ _ _ hdims
  change (List.replicate program.graph.size none)[p]?.join = _ at hdims
  rw [List.getElem?_replicate] at hdims
  split at hdims <;> cases hdims

theorem suited_of_build {store after : Option ArtifactStore}
    {session session' : Session Environment}
    (hregistry : registry.descriptors = referenceDescriptors)
    (h : build graph registry device config store session = (.ok program, after, session')) :
    program.BuiltFrom graph registry device config session.granted ∧ program.Suited := by
  obtain ⟨hrunnable, hlaid, hfrom⟩ := runnable_of_build (fun _ ↦ trivial) (fun _ ↦ trivial)
    (fun _ hnode _ hkept ↦ BuildState.buildInstance_prepares (fun _ ↦ trivial)
      (Standard.restores_suited hregistry) hnode
      (fun _ ↦ BuildState.bindInstance_suited hregistry) hkept) h
  exact ⟨hfrom, hlaid.safe, fun _ session ↦
    ⟨hrunnable session, hlaid.typed, program.counted_executionState session⟩⟩

/-! ## Executing -/

/-- Whatever else is asked of the instances, they can be prepared. -/
theorem Suited.upheld (h : program.Suited) : program.Upheld (.anything _ Environment) :=
  ⟨Standard.holds_anything _ _ _, fun hpoison session ↦
    (h.bounded hpoison session).upholds.anything⟩

/-- What a run leaves can be run again, in any session. -/
theorem Suited.withState (h : program.Suited)
    {state : ExecutionState CatalogueImplementation Environment}
    (hstate : state.Bounded program.graph program.plan) : (program.withState state).Suited :=
  ⟨h.safe, fun _ session ↦ ⟨upholds_withState hstate.upholds (fun _ ↦ trivial) program session,
    hstate.typed, (program.withState state).counted_executionState session⟩⟩

/-- How the run of a program goes: it ends or is cancelled, and keeps the bounds, or a visit fails,
which keeps them unless it poisons the program. -/
theorem Suited.run (h : program.Suited) (hregistry : program.registry.descriptors =
      referenceDescriptors) (hpoison : program.poison = none) (bindings : Bindings)
    (cancelled : Nat → Environment → Bool) (session : Session Environment) :
    let answer := (program.executionState session).run (program.context bindings) cancelled
    (Harmless answer.1 → answer.2.Bounded program.graph program.plan) ∧
      ∀ error, answer.1 = .error error → error.Intact := by
  rcases ExecutionState.visitAll_cases cancelled
    (@ExecutionState.bounded_visit program.plan (program.context bindings) hregistry)
    (List.range program.graph.size) 0 _ (h.bounded hpoison session) with
    ⟨hresult, hbounded⟩ | ⟨state, p, error, hstate, herror, hvisit⟩
  · refine ⟨fun _ ↦ hbounded, fun error herror ↦ ?_⟩
    rcases hresult with hok | ⟨completed, haborted⟩
    · exact absurd (herror.symm.trans hok) error_ne_ok
    · obtain rfl := Except.error.inj (herror.symm.trans haborted)
      trivial
  · have hvisited := hstate.upholds.visited_suited hregistry p
    rw [hvisit] at hvisited
    refine ⟨hvisited.bounded hstate, fun other hother ↦ ?_⟩
    exact hvisited.intact hstate hother

theorem intact_of_checkBindings (h : program.checkBindings bindings = .error error) :
    error.Intact := by
  obtain ⟨node, _, h⟩ := forM_eq_error h
  unfold checkBinding at h
  split at h
  · exact Except.error.inj h ▸ trivial
  · split at h
    · exact Except.error.inj h ▸ trivial
    · split at h
      · cases h
      · exact Except.error.inj h ▸ trivial

theorem intact_of_readOutput {extents : List (Option Dims)}
    (h : program.readOutput extents id = .error error) : error.Intact := by
  rcases of_readOutput_eq_error h with ⟨_, rfl⟩ | ⟨_, _, _, _, _, _, rfl⟩ | ⟨_, _, _, rfl⟩ |
    ⟨_, _, _, rfl⟩
  all_goals trivial

/-- An execution keeps what the next one needs, and leaves the device intact. -/
theorem Suited.execute (h : program.Suited)
    (hregistry : program.registry.descriptors = referenceDescriptors) (bindings : Bindings)
    (cancelled : Nat → Environment → Bool) (session : Session Environment) :
    let answer := program.execute bindings cancelled session
    answer.2.1.Suited ∧ ∀ error, answer.1 = .error error → error.Intact := by
  have hexecutes := program.executesAs bindings cancelled session
  generalize program.execute bindings cancelled session = answer at hexecutes
  cases hexecutes with
  | poisoned poison =>
    exact ⟨h, fun error herror ↦ Except.error.inj herror ▸ trivial⟩
  | unbound refused _ hbindings =>
    exact ⟨h, fun error herror ↦ Except.error.inj herror ▸ intact_of_checkBindings hbindings⟩
  | failed failure state hpoison hrun =>
    obtain ⟨hbounded, hintact⟩ := h.run hregistry hpoison bindings cancelled session
    rw [hrun] at hbounded hintact
    refine ⟨?_, fun error herror ↦ Except.error.inj herror ▸ hintact failure rfl⟩
    unfold afterFailure
    split
    · exact ⟨h.safe, nofun⟩
    · rename_i hharmless
      exact h.withState (hbounded (harmless_error_iff.2 (Bool.eq_false_iff.2 hharmless)))
  | completed state hpoison hrun =>
    obtain ⟨hbounded, _⟩ := h.run hregistry hpoison bindings cancelled session
    rw [hrun] at hbounded
    refine ⟨h.withState (hbounded (harmless_ok ())), fun error herror ↦ ?_⟩
    obtain ⟨_, _, hread⟩ := mapM_eq_error herror
    exact intact_of_readOutput hread

/-- Every call keeps what the next one needs. -/
theorem Evolves.suited (h : program.Evolves Environment program')
    (hregistry : registry.descriptors = referenceDescriptors)
    (hcompiled : program.CompiledFor graph registry device config) (hsuited : program.Suited) :
    program'.CompiledFor graph registry device config ∧ program'.Suited := by
  induction h with
  | refl => exact ⟨hcompiled, hsuited⟩
  | execute _ bindings cancelled session ih =>
    exact ⟨ih.1.execute bindings cancelled session,
      (ih.2.execute (ih.1.registry_eq ▸ hregistry) bindings cancelled session).1⟩
  | @rebuild before _ store session ih =>
    rcases before.rebuild_cases store session with ⟨_, _, hsame⟩ | ⟨_, _, _, hbuild⟩
    · rw [hsame]
      exact ih
    · obtain ⟨⟨hgraph, hregistry', hdevice, hconfig⟩, _⟩ := ih
      rw [hgraph, hregistry', hdevice, hconfig] at hbuild
      obtain ⟨hfrom, hsuited'⟩ := suited_of_build hregistry hbuild
      exact ⟨hfrom.compiledFor, hsuited'⟩

/-! ## Reading outputs -/

/-- A word counts the extents with which an output is read, so reading it does not break down. -/
def ReadsInBounds (program : Program CatalogueImplementation) (extents : List (Option Dims))
    (id : NodeId) : Prop :=
  ∃ (p : Nat) (node : Node) (dims : Dims), program.graph.nodes[p]? = some node ∧ node.id = id ∧
    extents[p]?.join = some dims ∧ elementCount? dims = some (volume dims) ∧
      ∀ message, program.readOutput extents id ≠ .error (.panicked message)

/-- An output has the extents of a value, and no word counts them: reading it breaks down. -/
def ReadsUncounted (program : Program CatalogueImplementation) (bindings : Bindings)
    (extents : List (Option Dims)) (id : NodeId) : Prop :=
  ∃ (p : Nat) (node : Node) (dims : Dims), program.graph.nodes[p]? = some node ∧ node.id = id ∧
    extents[p]?.join = some dims ∧ elementCount? dims = none ∧
      node.ownDims? bindings = some dims ∧
        program.readOutput extents id = .error (.panicked Size.overflowMessage)

/-- Reading an output breaks down exactly when no word counts its extents. -/
theorem readOutput_eq_panicked_iff {p : Nat} {extents : List (Option Dims)} {streams : Nat}
    {message : String} (hsafe : program.plan.Safe program.graph streams)
    (htyped : program.pool.Typed program.plan)
    (hnode : program.graph.nodes[p]? = some node) (hdims : extents[p]?.join = some dims) :
    program.readOutput extents node.id = .error (.panicked message) ↔
      elementCount? dims = none ∧ message = Size.overflowMessage := by
  constructor
  · intro h
    rcases of_readOutput_eq_error h with ⟨_, hother⟩ | ⟨_, _, _, _, _, _, hother⟩ |
      ⟨_, _, _, hother⟩ | ⟨position, hposition, hcount, hsame⟩
    · cases hother
    · cases hother
    · cases hother
    · obtain rfl := Option.some.inj ((Graph.position?_id hnode).symm.trans hposition)
      rw [hdims] at hcount
      exact ⟨hcount, RuntimeError.panicked.inj hsame⟩
  · rintro ⟨hcount, rfl⟩
    obtain ⟨data, hdata, _⟩ := htyped.exists_data hsafe hnode
    simp only [readOutput, Graph.position?_id hnode, hdims, Option.getD_some,
      hsafe.slotOf_id hnode, ok_bind, MemoryPool.read_eq_ok_iff.2 hdata, Except.mapError, hcount]
    rfl

/-- After a run to the end, an output is read in bounds or has the extents of a value. -/
theorem reads_of_settled {standard : Standard CatalogueImplementation Environment}
    {state : ExecutionState CatalogueImplementation Environment} {streams : Nat}
    (hsafe : program.plan.Safe program.graph streams)
    (hsettled : ExecutionState.SettledBefore standard (program.context bindings) state
      program.graph.size)
    (hstate : state.Bounded program.graph program.plan) (hid : id ∈ program.graph.outputs) :
    (program.withState state).ReadsInBounds state.extents id ∨
      (program.withState state).ReadsUncounted bindings state.extents id := by
  obtain ⟨p, node, hnode, rfl⟩ := Graph.exists_of_mem_outputs hid
  obtain ⟨_, dims, _, _, hdims, hextent, _⟩ :=
    hsettled.settled p (Graph.lt_size hnode) node hnode
  have hbreaks : ∀ message,
      (program.withState state).readOutput state.extents node.id = .error (.panicked message) ↔
        elementCount? dims = none ∧ message = Size.overflowMessage := fun _ ↦
    readOutput_eq_panicked_iff hsafe hstate.typed hnode hextent
  cases hcount : elementCount? dims with
  | some count =>
    refine .inl ⟨p, node, dims, hnode, rfl, hextent, ?_, fun message hpanicked ↦ ?_⟩
    · rw [hcount, eq_volume_of_elementCount? hcount]
    · rw [((hbreaks message).1 hpanicked).1] at hcount
      cases hcount
  | none =>
    refine .inr ⟨p, node, dims, hnode, rfl, hextent, hcount, ?_, (hbreaks _).2 ⟨hcount, rfl⟩⟩
    by_contra hown
    have hsome : (elementCount? dims).isSome = true := Node.isSome_elementCount? hdims hown
      fun hkind ↦ hstate.counted hnode hkind hextent
    rw [hcount] at hsome
    cases hsome

/-- Nothing breaks down in a call before the outputs are read. -/
theorem Upheld.reads_of_panicked {standard : Standard CatalogueImplementation Environment}
    (h : program.Upheld standard) {cancelled : Nat → Environment → Bool}
    {session : Session Environment} {message : String}
    (hpanicked : (program.execute bindings cancelled session).1 = .error (.panicked message)) :
    ∃ state, program.poison = none ∧
      (program.executionState session).run (program.context bindings) cancelled = (.ok (), state) ∧
      ∃ id ∈ program.graph.outputs,
        (program.withState state).readOutput state.extents id = .error (.panicked message) := by
  have hexecutes := program.executesAs bindings cancelled session
  generalize program.execute bindings cancelled session = answer at hpanicked hexecutes
  cases hexecutes with
  | poisoned => cases hpanicked
  | unbound _ _ hbindings =>
    obtain rfl := Except.error.inj hpanicked
    exact (ofRun_checkBindings hbindings).elim
  | failed _ state hpoison hrun =>
    obtain rfl := Except.error.inj hpanicked
    have hends := h.ends_run hpoison bindings cancelled session
    rw [hrun] at hends
    rcases hends.blames _ rfl with hofRun | ⟨_, haborted⟩ | hunprepared
    · exact hofRun.elim
    · cases haborted
    · cases hunprepared.poisonsProgram h.holds
  | completed state hpoison hrun => exact ⟨state, hpoison, hrun, mapM_eq_error hpanicked⟩

/-- No call multiplies extents beyond a word or leaves an operand, except that reading an output
breaks down when it has the extents of a value and no word counts them.  Along every sequence of
calls, a visit runs what stays in bounds and ends accordingly, no failure leaves the device in
doubt, after a run to the end every output is read in bounds or is such an exception, and a call
that breaks down is at one. -/
theorem execute_inBounds {store after : Option ArtifactStore}
    {session session' : Session Environment}
    (hregistry : registry.descriptors = referenceDescriptors)
    (hbuild : build graph registry device config store session = (.ok program, after, session'))
    (h : program.Evolves Environment program') (call : Invocation Environment) :
    (∀ visit ∈ program'.visits call,
      (∀ run, visit.dispatch? = some run → run.InBounds) ∧
      ∀ node, graph.nodes[visit.place]? = some node → node.kind.isExecutable = true →
        visit.EndsAsRun node) ∧
    (∀ error, (program'.execute call.bindings call.cancelled call.session).1 = .error error →
      error.Intact) ∧
    (∀ state, program'.poison = none →
      (program'.executionState call.session).run (program'.context call.bindings)
        call.cancelled = (.ok (), state) →
      ∀ id ∈ graph.outputs, (program'.withState state).ReadsInBounds state.extents id ∨
        (program'.withState state).ReadsUncounted call.bindings state.extents id) ∧
    ∀ message, (program'.execute call.bindings call.cancelled call.session).1 =
        .error (.panicked message) →
      ∃ state, program'.poison = none ∧
        (program'.executionState call.session).run (program'.context call.bindings)
          call.cancelled = (.ok (), state) ∧
        ∃ id ∈ graph.outputs,
          (program'.withState state).ReadsUncounted call.bindings state.extents id := by
  obtain ⟨hfrom, hsuited⟩ := suited_of_build hregistry hbuild
  obtain ⟨hcompiled, hsuited'⟩ := h.suited hregistry hfrom.compiledFor hsuited
  obtain rfl := hcompiled.graph_eq
  have hregistry' : program'.registry.descriptors = referenceDescriptors :=
    hcompiled.registry_eq ▸ hregistry
  have hreads : ∀ state, program'.poison = none →
      (program'.executionState call.session).run (program'.context call.bindings)
        call.cancelled = (.ok (), state) →
      ∀ id ∈ program'.graph.outputs, (program'.withState state).ReadsInBounds state.extents id ∨
        (program'.withState state).ReadsUncounted call.bindings state.extents id := by
    intro state hpoison hrun id hid
    have hbounded := (hsuited'.run hregistry' hpoison call.bindings call.cancelled call.session).1
    have hends := hsuited'.upheld.ends_run hpoison call.bindings call.cancelled call.session
    rw [hrun] at hbounded hends
    exact reads_of_settled hsuited'.safe (hends.settled rfl) (hbounded (harmless_ok ())) hid
  refine ⟨fun visit hvisit ↦ ?_, (hsuited'.execute hregistry' _ _ _).2, hreads,
    fun message hpanicked ↦ ?_⟩
  · unfold visits at hvisit
    split at hvisit
    · rename_i hpoison _
      obtain ⟨hcontext, hstate⟩ := ExecutionState.forall_visits call.cancelled
        (@ExecutionState.bounded_visit program'.plan (program'.context call.bindings) hregistry')
        _ 0 _ (hsuited'.bounded hpoison call.session) visit hvisit
      have hgraph : visit.context.graph = program'.graph := by
        rw [hcontext]
        rfl
      have hupholds : visit.state.Upholds .suited visit.context.graph program'.plan :=
        hgraph ▸ hstate.upholds
      exact ⟨fun _ ↦ visit.inBounds (hcontext ▸ hregistry') hupholds,
        fun _ hnode ↦ Visit.endsAsRun hupholds.anything (hgraph ▸ hnode)⟩
    · cases hvisit
  · obtain ⟨state, hpoison, hrun, id, hid, hbreaks⟩ := hsuited'.upheld.reads_of_panicked hpanicked
    refine ⟨state, hpoison, hrun, id, hid, ?_⟩
    exact (hreads state hpoison hrun id hid).resolve_left fun ⟨_, _, _, _, _, _, _, hnever⟩ ↦
      hnever message hbreaks

/-- The extents of a matrix with more elements than a word can count. -/
def vastDims : Dims := [0x100000001, 0x100000001]

/-- The sums of the rows of a product of two matrices, and another matrix as it is. -/
def rowSumsGraph : Graph where
  nodes := [
    ⟨⟨0⟩, .parameter, [], [⟨⟨[.unbounded, .unbounded]⟩, .i32, .rowMajor⟩]⟩,
    ⟨⟨1⟩, .parameter, [], [⟨⟨[.unbounded, .unbounded]⟩, .i32, .rowMajor⟩]⟩,
    ⟨⟨2⟩, .matMul ⟨false, false⟩, [⟨0⟩, ⟨1⟩], [⟨⟨[.unbounded, .unbounded]⟩, .i32, .rowMajor⟩]⟩,
    ⟨⟨3⟩, .reduce ⟨.sum, false⟩, [⟨2⟩], [⟨⟨[.unbounded]⟩, .i32, .rowMajor⟩]⟩,
    ⟨⟨4⟩, .parameter, [], [⟨⟨[.unbounded, .unbounded]⟩, .i32, .rowMajor⟩]⟩]
  outputs := [⟨3⟩, ⟨4⟩]
  valid := by rfl

/-- A row of two numbers and two rows of three numbers, with a matrix without elements. -/
def rowFactors (dims : Dims) : Bindings :=
  .ofList [(⟨0⟩, ⟨[1, 2], .i32 #[1, 2]⟩), (⟨1⟩, ⟨[2, 3], .i32 #[1, 2, 3, 4, 5, 6]⟩),
    (⟨4⟩, ⟨dims, .i32 #[]⟩)]

/-- The second call runs a matrix product and a reduction, both in bounds, and breaks down at the
extents of the other matrix. -/
theorem execute_inBounds_rowSumsGraph : ∃ program store after state,
    build rowSumsGraph referenceRegistry openDevice {} none freshSession =
      (.ok program, store, after) ∧
    let program' := (program.execute (rowFactors [0, 0]) never freshSession).2.1
    let bindings := rowFactors vastDims
    let call : Invocation Environment := ⟨bindings, never, freshSession⟩
    (program'.visits call).map (fun visit ↦ visit.dispatch?.isSome) =
      [false, false, true, true, false] ∧
    (∀ visit ∈ program'.visits call,
      (∀ run, visit.dispatch? = some run → run.InBounds) ∧
      ∀ node, rowSumsGraph.nodes[visit.place]? = some node → node.kind.isExecutable = true →
        visit.EndsAsRun node) ∧
    (program'.executionState freshSession).run (program'.context bindings) never =
      (.ok (), state) ∧
    ((program'.withState state).ReadsInBounds state.extents ⟨3⟩ ∨
      (program'.withState state).ReadsUncounted bindings state.extents ⟨3⟩) ∧
    ∃ id ∈ rowSumsGraph.outputs,
      (program'.withState state).ReadsUncounted bindings state.extents id := by
  obtain ⟨program, store, after, hbuild⟩ := exists_of_build rowSumsGraph referenceRegistry
    openDevice {} (by decide +kernel)
  have hruns : (build rowSumsGraph referenceRegistry openDevice {} none
      freshSession).1.toOption.map (fun program ↦
        let program' := (program.execute (rowFactors [0, 0]) never freshSession).2.1
        let call : Invocation Environment := ⟨rowFactors vastDims, never, freshSession⟩
        ((program'.visits call).map fun visit ↦ visit.dispatch?.isSome,
          (program'.execute call.bindings never freshSession).1)) =
      some ([false, false, true, true, false], .error (.panicked Size.overflowMessage)) := by
    decide +kernel
  rw [hbuild] at hruns
  obtain ⟨hvisits, hpanicked⟩ : _ ∧ _ := by
    simpa only [Prod.mk.injEq] using Option.some.inj hruns
  obtain ⟨hbounds, _, hreads, hbreaks⟩ := execute_inBounds rfl hbuild
    (.execute .refl (rowFactors [0, 0]) never freshSession)
    ⟨rowFactors vastDims, never, freshSession⟩
  obtain ⟨state, hpoison, hrun, huncounted⟩ := hbreaks _ hpanicked
  exact ⟨program, store, after, state, hbuild, hvisits, hbounds, hrun,
    hreads state hpoison hrun ⟨3⟩ (by decide), huncounted⟩

/-- A matrix that is handed on as it is. -/
def echoGraph : Graph where
  nodes := [⟨⟨0⟩, .parameter, [], [⟨⟨[.unbounded, .unbounded]⟩, .f32, .rowMajor⟩]⟩]
  outputs := [⟨0⟩]
  valid := by rfl

/-- A matrix without elements, whose extents speak of `2 ^ 64 + 2 ^ 33 + 1`. -/
def vastBindings : Bindings := fun _ ↦ some ⟨vastDims, .f32 #[]⟩

/-- The extents of a parameter are multiplied beyond a word, and the call breaks down. -/
theorem execute_panics_echoGraph : ∃ program store after state,
    build echoGraph referenceRegistry openDevice {} none freshSession =
      (.ok program, store, after) ∧
    (program.executionState freshSession).run (program.context vastBindings) never =
      (.ok (), state) ∧
    state.extents = [some vastDims] ∧
    ¬ (vastDims.map UInt64.toNat).prod < Size.wordCount ∧
    (program.execute vastBindings never freshSession).1 =
      .error (.panicked "attempt to multiply with overflow") := by
  obtain ⟨program, store, after, hbuild⟩ := exists_of_build echoGraph referenceRegistry
    openDevice {} (by decide +kernel)
  have hruns : (build echoGraph referenceRegistry openDevice {} none
      freshSession).1.toOption.map (fun program ↦
        let run := (program.executionState freshSession).run (program.context vastBindings) never
        (run.1, run.2.extents, (program.execute vastBindings never freshSession).1)) =
      some (.ok (), [some vastDims], .error (.panicked "attempt to multiply with overflow")) := by
    decide +kernel
  rw [hbuild] at hruns
  obtain ⟨hok, hextents, herror⟩ : _ ∧ _ ∧ _ := by
    simpa only [Prod.mk.injEq] using Option.some.inj hruns
  exact ⟨program, store, after, _, hbuild, Prod.ext hok rfl, hextents, by decide, herror⟩

end Program

end TensorEngine
