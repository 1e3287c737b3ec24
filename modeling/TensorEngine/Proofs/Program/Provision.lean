import TensorEngine.Proofs.Execution.Room
import TensorEngine.Proofs.Program.Streams
import TensorEngine.Proofs.Program.Upholding

/-!
# Programs within planned capacities

A program whose slots all have a capacity holds exactly the planned bytes from the start, and keeps
holding them whatever it is called with: on one stream or on several, whether a call succeeds, fails
or is cancelled.  No call is refused memory.
-/

namespace TensorEngine

/-- All constants are within their declared shapes. -/
def Graph.ConstantsAccepted (graph : Graph) : Prop :=
  ∀ node ∈ graph.nodes, ∀ tensor, node.op = .constant tensor →
    node.output.shape.accepts tensor.dims

/-! ## New slots -/

namespace MemoryPool

variable {pool pool' : MemoryPool} {graph : Graph} {plan : MemoryPlan} {slots : List BufferSlot}
  {limit : Option Nat} {granted : Nat}

/-- Slots that were empty get as many elements as their capacities say; no others change. -/
theorem exists_size_allocateSlots (hslots : slots.foldlM allocateSlot pool = .ok pool')
    (hcapacity : ∀ slot ∈ slots, slot.capacity ≠ none)
    (hempty : ∀ slot ∈ slots, pool.slotSize slot.id = 0)
    (hnodup : (slots.map BufferSlot.id).Nodup) :
    (∀ slot ∈ slots, ∃ data, pool'.slots[slot.id]? = some data ∧
      data.size = slot.capacity.getD 0) ∧
    ∀ s, s ∉ slots.map BufferSlot.id → pool'.slots[s]? = pool.slots[s]? := by
  induction slots generalizing pool with
  | nil =>
    obtain rfl := Except.ok.inj hslots
    exact ⟨nofun, fun _ _ ↦ rfl⟩
  | cons slot slots ih =>
    obtain ⟨hknown, hcapacity⟩ := List.forall_mem_cons.1 hcapacity
    obtain ⟨hfirst, hempty⟩ := List.forall_mem_cons.1 hempty
    obtain ⟨hfresh, hnodup⟩ := List.nodup_cons.1 hnodup
    obtain ⟨capacity, hcapacity'⟩ := Option.ne_none_iff_exists'.1 hknown
    rw [List.foldlM_cons, bind_eq_ok_iff] at hslots
    obtain ⟨next, hnext, hslots⟩ := hslots
    rw [allocateSlot, hcapacity', map_eq_ok_iff] at hnext
    obtain ⟨⟨grew, next⟩, hroom, rfl⟩ := hnext
    obtain ⟨data, data', hdata, hset, _, hsize, _⟩ := ensureCapacity_eq_ok hroom
    rw [slotSize_eq hdata] at hfirst
    rw [hfirst, Nat.zero_max] at hsize
    have hothers : ∀ s, s ≠ slot.id → next.slots[s]? = pool.slots[s]? := fun s hne ↦ by
      rw [hset, List.getElem?_set_ne hne.symm]
    obtain ⟨hroomy, hrest⟩ := ih hslots hcapacity (fun other hother ↦ by
      rw [slotSize, hothers _ fun heq ↦ hfresh (heq ▸ List.mem_map_of_mem hother)]
      exact hempty other hother) hnodup
    refine ⟨List.forall_mem_cons.2 ⟨⟨data', ?_, ?_⟩, hroomy⟩, fun s hs ↦ ?_⟩
    · rw [hrest _ hfresh, hset]
      exact List.getElem?_set_self (List.getElem?_eq_some_iff.1 hdata).1
    · rw [hsize, hcapacity', Option.getD_some]
    · rw [List.map_cons, List.mem_cons, not_or] at hs
      rw [hrest s hs.2, hothers s hs.1]

/-- A pool starts as planned when all its slots have a capacity. -/
theorem asPlanned_allocate (hnumbered : plan.Numbered)
    (hcapacity : ∀ slot ∈ plan.slots, slot.capacity ≠ none)
    (hpool : allocate plan limit granted = .ok pool) : pool.AsPlanned plan := by
  obtain ⟨hroomy, _⟩ := exists_size_allocateSlots hpool hcapacity (fun slot hslot ↦ by
    rw [slotSize_eq (getElem?_empty hnumbered hslot), TensorData.size_empty]) hnumbered.nodup
  have hexists : ∀ {s : Nat} {slot : BufferSlot}, plan.slots[s]? = some slot →
      ∃ data, pool.slots[s]? = some data ∧ data.size = slot.capacity.getD 0 := by
    intro s slot hslot
    rw [← hnumbered s slot hslot]
    exact hroomy slot (List.mem_of_getElem? hslot)
  refine ⟨hexists, ?_⟩
  obtain ⟨haccounted, _⟩ := accounted_empty.allocateSlots hpool
  rw [haccounted.allocated_eq, heldBytes, MemoryPlan.bytes]
  have htyped := typed_allocate hpool
  have hlength := congrArg List.length htyped
  rw [List.length_map, List.length_map] at hlength
  congr 1
  refine List.ext_getElem (by simpa using hlength) fun s hs hs' ↦ ?_
  rw [List.length_map] at hs hs'
  obtain ⟨data, hdata, hsize⟩ := hexists (List.getElem?_eq_getElem hs')
  have hget := (List.getElem?_eq_some_iff.1 hdata).2
  have hdtype : (pool.slots.map TensorData.dtype)[s]? = (plan.slots.map BufferSlot.dtype)[s]? := by
    rw [htyped]
  rw [List.getElem?_map, List.getElem?_map, hdata, List.getElem?_eq_getElem hs'] at hdtype
  rw [List.getElem_map, List.getElem_map, hget, TensorData.byteSize, BufferSlot.bytes, hsize,
    Option.some.inj hdtype]

end MemoryPool

/-! ## Constants -/

namespace PrimitiveInstance

variable {ι : Type} {inst : PrimitiveInstance ι} {graph : Graph} {plan : MemoryPlan}
  {pool pool' : MemoryPool} {streams p : Nat}

/-- A constant within its declared shape is written without a request for memory. -/
theorem asPlanned_writeConstant (hpool : pool.AsPlanned plan) (hample : plan.Ample graph)
    (hnode : graph.nodes[p]? = some inst.node) (hconstants : graph.ConstantsWellFormed)
    (haccepted : graph.ConstantsAccepted)
    (hwrite : inst.writeConstant (plan.place p) pool = .ok pool') : pool'.AsPlanned plan := by
  have hmem := List.mem_of_getElem? hnode
  unfold writeConstant at hwrite
  split at hwrite
  · rename_i tensor hop
    rw [hpool.ensureCapacity_place hample hnode (haccepted _ hmem tensor hop)
      (hconstants _ hmem tensor hop), Except.mapError, ok_bind] at hwrite
    obtain ⟨data, hdata, hwrite⟩ := bind_eq_ok_iff.1 hwrite
    obtain ⟨data', hcopy, hwrite⟩ := bind_eq_ok_iff.1 hwrite
    rw [mapError_eq_ok_iff, MemoryPool.read_eq_ok_iff] at hdata
    rw [mapError_eq_ok_iff, TensorData.copyFrom_eq_ok_iff] at hcopy
    obtain ⟨_, _, rfl⟩ := hcopy
    obtain rfl := Except.ok.inj hwrite
    exact hpool.set hdata TensorData.size_overwrite
  · obtain rfl := Except.ok.inj hwrite
    exact hpool

/-- Giving all instances their slots leaves these as planned. -/
theorem asPlanned_placeAll (hsafe : plan.Safe graph streams) (hample : plan.Ample graph)
    (hconstants : graph.ConstantsWellFormed) (haccepted : graph.ConstantsAccepted)
    {built : List (PrimitiveInstance ι)} :
    ∀ {k : Nat} {pool : MemoryPool} {placed : List (PrimitiveInstance ι)},
      graph.nodes.drop k = built.map (·.node) → pool.AsPlanned plan →
        placeAll plan pool built = .ok (placed, pool') → pool'.AsPlanned plan := by
  induction built with
  | nil =>
    intro k pool placed _ hpool h
    obtain ⟨rfl, rfl⟩ := Prod.mk.inj (Except.ok.inj h)
    exact hpool
  | cons inst built ih =>
    intro k pool placed hdrop hpool h
    unfold placeAll at h
    obtain ⟨⟨first, next⟩, hfirst, h⟩ := bind_eq_ok_iff.1 h
    obtain ⟨⟨others, last⟩, hothers, h⟩ := bind_eq_ok_iff.1 h
    obtain ⟨rfl, rfl⟩ := Prod.mk.inj (Except.ok.inj h)
    obtain ⟨hnode, hdrop'⟩ := Graph.node_of_drop hdrop
    obtain ⟨_, hwrite⟩ := place_eq_ok hsafe hnode hfirst
    exact ih hdrop' (asPlanned_writeConstant hpool hample hnode hconstants haccepted hwrite) hothers

end PrimitiveInstance

/-! ## Calls -/

namespace StreamRun

variable {ι ω : Type} {context : ExecutionContext ι} {schedule : StreamSchedule}
  {run run' : StreamRun ι ω} {graph : Graph} {plan : MemoryPlan}

/-- What streams may do next in a call that can be cancelled.  A stream that saw no halt signal may
find the call cancelled, which it records unless there is a failure already. -/
inductive Moves [Implementation ι ω] (context : ExecutionContext ι) (schedule : StreamSchedule) :
    StreamRun ι ω → StreamRun ι ω → Prop
  | step {run run' : StreamRun ι ω} (h : Step context schedule run run') :
      Moves context schedule run run'
  | abort {run : StreamRun ι ω} {s next p : Nat} (hat : run.At schedule s ⟨next, .entered⟩ p)
      (completed : Nat) :
      Moves context schedule run
        ({ run with failure := some (run.failure.getD (.aborted completed)) }.stop schedule s next)

/-- The program that streams leave in the end. -/
def after (run : StreamRun ι ω) (program : Program ι) : Program ι :=
  match run.failure with
  | some error => (program.withState run.state).afterFailure error
  | none => program.withState run.state

variable [Implementation ι ω]

/-- A cancellation asks for no memory either. -/
theorem Provided.move (h : run.Provided context.graph plan) (hample : plan.Ample context.graph)
    (hbindings : context.bindings.WellFormed) (hmoves : Moves context schedule run run') :
    run'.Provided context.graph plan := by
  cases hmoves with
  | step hstep => exact h.step hample hbindings hstep
  | abort hat completed =>
    refine ⟨h.state, fun error herror ↦ ?_⟩
    obtain rfl : run.failure.getD (.aborted completed) = error := Option.some.inj herror
    cases hfirst : run.failure with
    | some first => exact h.not_refused first hfirst
    | none => exact nofun

theorem Provided.moves (h : run.Provided context.graph plan) (hample : plan.Ample context.graph)
    (hbindings : context.bindings.WellFormed)
    (hmoves : Relation.ReflTransGen (Moves context schedule) run run') :
    run'.Provided context.graph plan := by
  induction hmoves with
  | refl => exact h
  | tail _ hmove ih => exact ih.move hample hbindings hmove

end StreamRun

namespace Program

variable {ι ω : Type} {program program' : Program ι} {graph : Graph} {plan : MemoryPlan}
  {bindings : Bindings} {answer : Except RuntimeError (List HostTensor)} {registry : Registry ι}
  {device : DeviceCaps} {config : RuntimeConfig} {session : Session ω}

/-- How a call may go: what it answers and the program that it leaves.  One stream visits the places
in the order of the graph; several visit them side by side, unless the program refuses the call. -/
inductive Calls (ω : Type) [Implementation ι ω] (program : Program ι) (bindings : Bindings) :
    Except RuntimeError (List HostTensor) → Program ι → Prop
  | executed (cancelled : Nat → ω → Bool) (session : Session ω) :
      Calls ω program bindings (program.execute bindings cancelled session).1
        (program.execute bindings cancelled session).2.1
  | streamed {run : StreamRun ι ω} (session : Session ω) (hpoison : program.poison = none)
      (hbindings : program.checkBindings bindings = .ok ())
      (hmoves : Relation.ReflTransGen
        (StreamRun.Moves (program.context bindings) program.schedule)
        (.start program.schedule (program.executionState session)) run)
      (hfinished : run.Finished program.schedule) :
      Calls ω program bindings (run.answer program) (run.after program)

/-- The programs that calls lead to, all with bindings that are tensors. -/
inductive Serves (ω : Type) [Implementation ι ω] (program : Program ι) : Program ι → Prop
  | refl : Serves ω program program
  | call {program' program'' : Program ι} {bindings : Bindings}
      {answer : Except RuntimeError (List HostTensor)} (h : Serves ω program program')
      (hbindings : bindings.WellFormed) (hcall : Calls ω program' bindings answer program'') :
      Serves ω program program''

/-- Every place of a program has an instance with its slots, and the slots are as planned. -/
structure Provided (program : Program ι) (graph : Graph) (plan : MemoryPlan) : Prop where
  graph_eq : program.graph = graph
  plan_eq : program.plan = plan
  exists_instance : ∀ {p : Nat} {node : Node}, graph.nodes[p]? = some node →
    ∃ inst, program.instances[p]? = some inst ∧ inst.Seated graph plan p node
  length_instances : program.instances.length = graph.size
  pool : program.pool.AsPlanned plan

theorem Provided.executionState (h : program.Provided graph plan) (session : Session ω) :
    (program.executionState session).Provided program.graph plan := by
  rw [h.graph_eq]
  exact ⟨h.exists_instance, h.length_instances, h.pool⟩

theorem Provided.withState (h : program.Provided graph plan) {state : ExecutionState ι ω}
    (hstate : state.Provided program.graph plan) :
    (program.withState state).Provided graph plan := by
  rw [h.graph_eq] at hstate
  exact ⟨h.graph_eq, h.plan_eq, hstate.exists_instance, hstate.length_instances, hstate.pool⟩

theorem Provided.afterFailure (h : program.Provided graph plan) (error : RuntimeError) :
    (program.afterFailure error).Provided graph plan := by
  unfold Program.afterFailure
  split
  · exact ⟨h.graph_eq, h.plan_eq, h.exists_instance, h.length_instances, h.pool⟩
  · exact h

theorem not_refused_checkBindings : ¬Refused (program.checkBindings bindings) := by
  rintro ⟨requested, slot, reason, h⟩
  obtain ⟨node, _, h⟩ := forM_eq_error h
  unfold checkBinding at h
  split at h
  · cases h
  · split at h
    · cases h
    · split at h <;> cases h

/-- Reading an output asks for no memory: its slot is there. -/
theorem Provided.not_refused_readOutput (h : program.Provided graph plan)
    {streams : Nat} (hsafe : plan.Safe graph streams) {extents : List (Option Dims)} {id : NodeId} :
    ¬Refused (program.readOutput extents id) := by
  rintro ⟨requested, slot, reason, hread⟩
  rcases of_readOutput_eq_error hread with ⟨_, herror⟩ |
    ⟨position, slot, refusal, hposition, hslot, hrefused, _⟩ | ⟨_, _, _, herror⟩ | ⟨_, _, _, herror⟩
  · cases herror
  · rw [h.graph_eq] at hposition
    rw [h.plan_eq] at hslot
    obtain ⟨node, hnode, rfl⟩ := Graph.position?_eq_some_iff.1 hposition
    obtain rfl := Except.ok.inj ((hsafe.slotOf_id hnode).symm.trans hslot)
    obtain ⟨planned, hplanned, _⟩ := hsafe.slot_place hnode
    obtain ⟨data, hdata, _⟩ := h.pool.exists_data hplanned
    rw [MemoryPool.read_eq_ok_iff.2 hdata] at hrefused
    cases hrefused
  · cases herror
  · cases herror

theorem Provided.not_refused_readOutputs (h : program.Provided graph plan)
    {streams : Nat} (hsafe : plan.Safe graph streams) {extents : List (Option Dims)}
    (ids : List NodeId) : ¬Refused (ids.mapM (program.readOutput extents)) := by
  rintro ⟨requested, slot, reason, hread⟩
  obtain ⟨id, _, hread⟩ := mapM_eq_error hread
  exact h.not_refused_readOutput hsafe ⟨requested, slot, reason, hread⟩

variable [Implementation ι ω]

/-- A program that was built has its slots as planned. -/
theorem BuiltFrom.asPlanned {granted : Nat}
    (hfrom : program.BuiltFrom graph registry device config granted)
    (hcapacity : ∀ slot ∈ program.plan.slots, slot.capacity ≠ none)
    (hconstants : graph.ConstantsWellFormed) (haccepted : graph.ConstantsAccepted) :
    program.pool.AsPlanned program.plan := by
  obtain ⟨pool, hpool, hplaced⟩ := bind_eq_ok_iff.1 hfrom.pool_eq
  obtain ⟨⟨placed, _⟩, hplaced, rfl⟩ := map_eq_ok_iff.1 hplaced
  rw [mapError_eq_ok_iff] at hpool
  refine PrimitiveInstance.asPlanned_placeAll (k := 0) (MemoryPlan.safe_of_ofGraph hfrom.plan_eq)
    (MemoryPlan.ample_of_ofGraph hfrom.plan_eq hcapacity) hconstants haccepted ?_
    (MemoryPool.asPlanned_allocate (MemoryPlan.numbered_ofGraph hfrom.plan_eq) hcapacity hpool)
    hplaced
  rw [List.drop_zero, List.map_map]
  exact (List.map_id' _).symm

/-- A program that was built is provided for. -/
theorem provided_of_build {store after : Option ArtifactStore} {session session' : Session ω}
    (hplan : MemoryPlan.ofGraph graph config.streamCount = .ok plan)
    (hcapacity : ∀ slot ∈ plan.slots, slot.capacity ≠ none)
    (hconstants : graph.ConstantsWellFormed) (haccepted : graph.ConstantsAccepted)
    (hbuild : build graph registry device config store session = (.ok program, after, session')) :
    program.Provided graph plan := by
  obtain ⟨hupheld, hfrom⟩ := upheld_anything_of_build hbuild
  obtain rfl : plan = program.plan := Except.ok.inj (hplan.symm.trans hfrom.plan_eq)
  have hstate := hupheld.runnable hfrom.poison_eq session'
  have hgraph := hfrom.graph_eq
  subst hgraph
  exact ⟨rfl, rfl, fun hnode ↦
    have ⟨inst, hinst, hseated, _⟩ := hstate.exists_instance hnode
    ⟨inst, hinst, hseated⟩, hstate.length_instances,
    hfrom.asPlanned hcapacity hconstants haccepted⟩

/-- A call is not refused memory, and leaves a program that is provided for. -/
theorem Provided.call (h : program.Provided graph plan) {streams : Nat}
    (hsafe : plan.Safe graph streams) (hample : plan.Ample graph) (hbindings : bindings.WellFormed)
    (hcall : Calls ω program bindings answer program') :
    program'.Provided graph plan ∧ ¬Refused answer := by
  have hample' : plan.Ample (program.context bindings).graph := by
    rw [context, h.graph_eq]
    exact hample
  cases hcall with
  | executed cancelled session =>
    have hran := ExecutionState.Provided.visitAll hample' hbindings cancelled
      (List.range program.graph.size) 0 _ (h.executionState session)
    rw [← run_executionState] at hran
    have hexecutes := program.executesAs bindings cancelled session
    generalize program.execute bindings cancelled session = answer at hexecutes
    cases hexecutes with
    | poisoned =>
      refine ⟨h, ?_⟩
      rintro ⟨_, _, _, herror⟩
      cases Except.error.inj herror
    | unbound error _ hchecked =>
      refine ⟨h, ?_⟩
      rintro ⟨requested, slot, reason, herror⟩
      exact not_refused_checkBindings
        ⟨requested, slot, reason, hchecked.trans (congrArg _ (Except.error.inj herror))⟩
    | failed error state _ hrun =>
      rw [hrun] at hran
      refine ⟨(h.withState hran.1).afterFailure error, ?_⟩
      rintro ⟨requested, slot, reason, herror⟩
      exact hran.2 ⟨requested, slot, reason, congrArg _ (Except.error.inj herror)⟩
    | completed state _ hrun =>
      rw [hrun] at hran
      exact ⟨h.withState hran.1, (h.withState hran.1).not_refused_readOutputs hsafe _⟩
  | @streamed run session _ _ hmoves =>
    have hran : run.Provided program.graph plan := StreamRun.Provided.moves
      ⟨h.executionState session, fun _ herror ↦ absurd herror (Option.some_ne_none _).symm⟩
      hample' hbindings hmoves
    unfold StreamRun.answer StreamRun.after
    cases hfailure : run.failure with
    | some error =>
      refine ⟨(h.withState hran.state).afterFailure error, ?_⟩
      rintro ⟨requested, slot, reason, herror⟩
      exact hran.not_refused error hfailure
        ⟨requested, slot, reason, congrArg _ (Except.error.inj herror)⟩
    | none =>
      exact ⟨h.withState hran.state, (h.withState hran.state).not_refused_readOutputs hsafe _⟩

theorem Serves.provided (hserves : program.Serves ω program') (h : program.Provided graph plan)
    {streams : Nat} (hsafe : plan.Safe graph streams) (hample : plan.Ample graph) :
    program'.Provided graph plan := by
  induction hserves with
  | refl => exact h
  | call _ hbindings hcall ih => exact (ih.call hsafe hample hbindings hcall).1

/-- Planned capacities suffice.  When every slot has one, and the constants are tensors within their
declared shapes, a new program holds exactly the planned bytes, so does every program that calls
lead to, and none of these calls is refused memory. -/
theorem capacity_suffices {store after : Option ArtifactStore} {session session' : Session ω}
    (hplan : MemoryPlan.ofGraph graph config.streamCount = .ok plan)
    (hcapacity : ∀ slot ∈ plan.slots, slot.capacity ≠ none)
    (hconstants : graph.ConstantsWellFormed) (haccepted : graph.ConstantsAccepted)
    (hbuild : build graph registry device config store session = (.ok program, after, session')) :
    program.pool.allocated = plan.bytes ∧ ∀ program', program.Serves ω program' →
      program'.pool.allocated = plan.bytes ∧
      ∀ bindings answer program'', bindings.WellFormed →
        Calls ω program' bindings answer program'' → ¬Refused answer := by
  have hprovided := provided_of_build hplan hcapacity hconstants haccepted hbuild
  have hsafe := MemoryPlan.safe_of_ofGraph hplan
  have hample : plan.Ample graph := MemoryPlan.ample_of_ofGraph hplan hcapacity
  refine ⟨hprovided.pool.allocated_eq, fun program' hserves ↦ ?_⟩
  have hprovided' := hserves.provided hprovided hsafe hample
  exact ⟨hprovided'.pool.allocated_eq, fun _ _ _ hbindings hcall ↦
    (hprovided'.call hsafe hample hbindings hcall).2⟩

/-- Up to three pairs of numbers, their negations, and the absolute values of a constant pair. -/
def pairsGraph : Graph where
  nodes := [
    ⟨⟨0⟩, .parameter, [], [⟨⟨[.range 0 3, .fixed 2]⟩, .i32, .rowMajor⟩]⟩,
    ⟨⟨1⟩, .constant ⟨[2], .i32 #[-1, 2]⟩, [], [⟨⟨[.fixed 2]⟩, .i32, .rowMajor⟩]⟩,
    ⟨⟨2⟩, .unary .neg, [⟨0⟩], [⟨⟨[.range 0 3, .fixed 2]⟩, .i32, .rowMajor⟩]⟩,
    ⟨⟨3⟩, .unary .abs, [⟨1⟩], [⟨⟨[.fixed 2]⟩, .i32, .rowMajor⟩]⟩]
  outputs := [⟨2⟩, ⟨3⟩]
  valid := by rfl

def threePairs : Bindings := fun _ ↦ some ⟨[3, 2], .i32 #[1, 2, 3, 4, 5, 6]⟩

/-- On two streams, room for eight pairs is there from the start and stays there, also after a call
with as many pairs as there may be. -/
theorem capacity_suffices_pairsGraph : ∃ program store after,
    build pairsGraph referenceRegistry openDevice (RuntimeConfig.withStreams {} 2) none
      freshSession = (.ok program, store, after) ∧
    (program.execute threePairs never freshSession).1 =
      .ok [⟨[3, 2], .i32 #[-1, -2, -3, -4, -5, -6]⟩, ⟨[2], .i32 #[1, 2]⟩] ∧
    program.pool.allocated = 64 ∧ ∀ program', program.Serves Environment program' →
      program'.pool.allocated = 64 ∧
      ∀ bindings answer program'', bindings.WellFormed →
        Calls Environment program' bindings answer program'' → ¬Refused answer := by
  obtain ⟨program, store, after, hbuild⟩ := exists_of_build pairsGraph referenceRegistry openDevice
    (RuntimeConfig.withStreams {} 2) (by decide +kernel)
  have hanswer : (build pairsGraph referenceRegistry openDevice (RuntimeConfig.withStreams {} 2)
      none freshSession).1.toOption.map (fun program ↦
        (program.execute threePairs never freshSession).1.toOption) =
          some (some [⟨[3, 2], .i32 #[-1, -2, -3, -4, -5, -6]⟩, ⟨[2], .i32 #[1, 2]⟩]) := by
    decide +kernel
  rw [hbuild] at hanswer
  have hplan : MemoryPlan.ofGraph pairsGraph (RuntimeConfig.withStreams {} 2).streamCount =
      .ok ((MemoryPlan.ofGraph pairsGraph 2).toOption.getD default) := rfl
  have hbytes : ((MemoryPlan.ofGraph pairsGraph 2).toOption.getD default).bytes = 64 := by
    decide +kernel
  have hsuffices := capacity_suffices hplan (by decide +kernel)
    (by unfold Graph.ConstantsWellFormed; simp [pairsGraph]; rfl)
    (by unfold Graph.ConstantsAccepted; simp [pairsGraph]; rfl) hbuild
  rw [hbytes] at hsuffices
  exact ⟨program, store, after, hbuild, toOption_eq_some_iff.1 (Option.some.inj hanswer), hsuffices⟩

end Program

end TensorEngine
