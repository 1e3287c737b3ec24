import TensorEngine.Artifact
import TensorEngine.Artifact.Store
import TensorEngine.Config
import TensorEngine.Execution
import TensorEngine.Schedule

/-!
# Programs

A program is a graph compiled against a registry and a device: an instance for each node, a memory
plan with its pool and a stream schedule.  Nodes whose extents are all known are finalized when
the program is built, or restored from an artifact store; the others are finalized by the first
execution.

A failure that leaves instances or memory in doubt poisons the program.  It then refuses to run
until it is built anew.
-/

namespace TensorEngine

/-- An instance whose implementation takes its operands only after a conversion. -/
structure FormatConversion where
  node : NodeId
  implementation : String
  /-- The declared layouts of the operands. -/
  inputs : String
deriving DecidableEq, Repr, Inhabited

/-- Why a program refuses to run. -/
structure Poison where
  node : NodeId
  reason : String
deriving DecidableEq, Repr, Inhabited

/-- A graph compiled against a registry and a device. -/
structure Program (ι : Type) where
  graph : Graph
  registry : Registry ι
  device : DeviceCaps
  config : RuntimeConfig
  instances : List (PrimitiveInstance ι)
  plan : MemoryPlan
  pool : MemoryPool
  schedule : StreamSchedule
  cache : Option (ImplementationCache ι)
  /-- The conversions that instances needed when they were built. -/
  conversions : List FormatConversion
  /-- The instances that were restored from artifacts. -/
  artifactHits : Nat
  /-- Why the program refuses to run. -/
  poison : Option Poison

/-- What building changes besides the instances. -/
structure BuildState (ι ω : Type) where
  /-- The artifacts, when they are in use. -/
  store : Option ArtifactStore
  workspace : Workspace ι ω

/-! ## Building instances -/

namespace Node

/-- The extents of a node when all are known. -/
def staticShapes? (node : Node) (declaredInputs : List Layout) : Option ConcreteShapes := do
  let inputs ← declaredInputs.mapM fun layout ↦ layout.shape.staticDims?
  let output ← match node.op with
    | .constant tensor => some tensor.dims
    | _ => node.output.shape.staticDims?
  return ⟨inputs, [output]⟩

end Node

namespace BuildState

variable {ι ω : Type} [Implementation ι ω]

/-- An instance restored from the store, when there is one with a fitting artifact. -/
def restore? (state : BuildState ι ω) (node : Node) (declaredInputs : List Layout)
    (context : SpecializeContext ι) : Option (PrimitiveInstance ι) × BuildState ι ω :=
  match state.store with
  | none => (none, state)
  | some store =>
    match store.get (node.signature declaredInputs) with
    | (none, store) =>
      (none, ⟨some store, state.workspace.event Profile.artifactMiss⟩)
    | (some blob, store) =>
      match PrimitiveInstance.ofArtifact blob node declaredInputs context.registry context.device
          state.workspace.environment with
      | (.ok inst, env) =>
        (some inst,
          ⟨some store, (state.workspace.withEnvironment env).event Profile.artifactHit⟩)
      | (.error _, env) =>
        (none,
          ⟨some store, (state.workspace.withEnvironment env).event Profile.artifactRejected⟩)

/-- Stores the artifact of an instance, when it has one. -/
def save (state : BuildState ι ω) (inst : PrimitiveInstance ι)
    (context : SpecializeContext ι) : BuildState ι ω :=
  match inst.toArtifact context.registry context.device with
  | .ok blob => { state with store := state.store.map (·.put inst.signature blob) }
  | .error _ => state

/-- Binds a new instance and finalizes it when all its extents are known. -/
def bindInstance (state : BuildState ι ω) (node : Node) (declaredInputs : List Layout)
    (context : SpecializeContext ι) :
    Except RuntimeError (PrimitiveInstance ι) × BuildState ι ω :=
  let inst := PrimitiveInstance.ofNode node declaredInputs
  match inst.bind context.registry context.device with
  | (.error error, _) => (.error error, state)
  | (.ok (), inst) =>
    match node.staticShapes? declaredInputs with
    | none => (.ok inst, state)
    | some shapes =>
      match inst.prepare shapes context state.workspace with
      | (.error error, _, workspace) => (.error error, { state with workspace })
      | (.ok _, inst, workspace) => (.ok inst, { state with workspace }.save inst context)

def buildInstance (state : BuildState ι ω) (node : Node) (declaredInputs : List Layout)
    (context : SpecializeContext ι) :
    Except RuntimeError (PrimitiveInstance ι × Bool) × BuildState ι ω :=
  match state.restore? node declaredInputs context with
  | (some inst, state) => (.ok (inst, true), state)
  | (none, state) =>
    match state.bindInstance node declaredInputs context with
    | (.ok inst, state) => (.ok (inst, false), state)
    | (.error error, state) => (.error error, state)

/-- The instances of nodes, up to the first failure. -/
def buildInstances (state : BuildState ι ω) (graph : Graph) (context : SpecializeContext ι) :
    List Node → Except RuntimeError (List (PrimitiveInstance ι × Bool)) × BuildState ι ω
  | [] => (.ok [], state)
  | node :: rest =>
    match state.buildInstance node (graph.inputLayouts node) context with
    | (.error error, state) => (.error error, state)
    | (.ok built, state) =>
      match state.buildInstances graph context rest with
      | (.ok others, state) => (.ok (built :: others), state)
      | (.error error, state) => (.error error, state)

end BuildState

/-! ## Laying out memory -/

namespace MemoryPlan

def slotOf (plan : MemoryPlan) (node : NodeId) : Except RuntimeError Nat :=
  match plan.slot? node with
  | some slot => .ok slot
  | none => .error (.invalidGraph s!"memory plan has no slot for {node.text}")

end MemoryPlan

namespace PrimitiveInstance

variable {ι : Type}

def writeConstant (inst : PrimitiveInstance ι) (slot : Nat) (pool : MemoryPool) :
    Except RuntimeError MemoryPool :=
  match inst.node.op with
  | .constant tensor => do
    let (_, pool) ← (pool.ensureCapacity slot tensor.size).mapError AllocationError.toRuntime
    inst.copyBinding tensor slot pool
  | _ => .ok pool

/-- Gives an instance its slots and fills that of a constant. -/
def place (inst : PrimitiveInstance ι) (plan : MemoryPlan) (pool : MemoryPool) :
    Except RuntimeError (PrimitiveInstance ι × MemoryPool) := do
  let inputSlots ← inst.node.inputs.mapM plan.slotOf
  let outputSlot ← plan.slotOf inst.node.id
  let pool ← inst.writeConstant outputSlot pool
  return (inst.attachSlots inputSlots outputSlot, pool)

/-- Gives instances their slots, one after the other. -/
def placeAll (plan : MemoryPlan) (pool : MemoryPool) :
    List (PrimitiveInstance ι) → Except RuntimeError (List (PrimitiveInstance ι) × MemoryPool)
  | [] => .ok ([], pool)
  | inst :: rest => do
    let (inst, pool) ← inst.place plan pool
    let (others, pool) ← placeAll plan pool rest
    return (inst :: others, pool)

end PrimitiveInstance

namespace Program

variable {ι ω : Type} [Implementation ι ω]

/-! ## Building programs -/

def conversion? (inst : PrimitiveInstance ι) : Option FormatConversion :=
  if inst.requiresConversion then
    some ⟨inst.node.id, inst.implementationName?.getD "", Layout.texts inst.declaredInputs⟩
  else none

/-- The program of instances, or the first failure of laying out its memory on a host that grants
blocks of up to `granted` bytes. -/
def ofInstances (graph : Graph) (registry : Registry ι) (device : DeviceCaps)
    (config : RuntimeConfig) (built : List (PrimitiveInstance ι × Bool))
    (cache : Option (ImplementationCache ι)) (granted : Nat) :
    Except RuntimeError (Program ι) := do
  let streams := config.streamCount
  let plan ← (MemoryPlan.ofGraph graph streams).mapError fun error ↦
    .invalidGraph error.message
  let pool ← (MemoryPool.allocate plan config.maxPoolBytes granted).mapError
    AllocationError.toRuntime
  let instances := built.map Prod.fst
  let (placed, pool) ← PrimitiveInstance.placeAll plan pool instances
  return {
    graph, registry, device, config, plan, pool, cache
    instances := placed
    schedule := .ofGraph graph streams
    conversions := instances.filterMap conversion?
    artifactHits := built.countP Prod.snd
    poison := none }

/-- Builds a program; the store is left alone when artifacts are disabled. -/
def build (graph : Graph) (registry : Registry ι) (device : DeviceCaps) (config : RuntimeConfig)
    (store : Option ArtifactStore) (session : Session ω) :
    Except RuntimeError (Program ι) × Option ArtifactStore × Session ω :=
  let cache := ImplementationCache.ofCapacity? config.implCacheCapacity
  let state : BuildState ι ω :=
    { store := if config.artifactCache then store else none
      workspace := ⟨cache, session.scope Profile.buildScope⟩ }
  let (built, state) := state.buildInstances graph ⟨registry, device⟩ graph.nodes
  let program := do
    ofInstances graph registry device config (← built) state.workspace.cache session.granted
  (program, if config.artifactCache then state.store else store, state.workspace.session)

/-- Builds the program anew; when that fails, it stays as it is. -/
def rebuild (program : Program ι) (store : Option ArtifactStore) (session : Session ω) :
    Except RuntimeError Unit × Program ι × Option ArtifactStore × Session ω :=
  match build program.graph program.registry program.device program.config store session with
  | (.ok rebuilt, store, session) => (.ok (), rebuilt, store, session)
  | (.error error, store, session) => (.error error, program, store, session)

/-! ## Executing programs -/

/-- The value bound to a parameter has another type of elements than it declares. -/
def bindingType (node : Node) (binding : HostTensor) : RuntimeError :=
  .invalidGraph (s!"binding for {node.id.text} is {binding.dtype.name}, "
    ++ s!"parameter is declared {node.output.text}")

/-- Checks the value bound to a parameter. -/
def checkBinding (bindings : Bindings) (node : Node) : Except RuntimeError Unit :=
  match bindings node.id with
  | none => .error (.missingBinding node.id)
  | some binding =>
    if binding.dtype ≠ node.output.dtype then .error (bindingType node binding)
    else if node.output.shape.accepts binding.dims then .ok ()
    else .error (.shapeOutOfRange node.id node.output.shape binding.dims)

/-- Checks that every parameter has a value of the declared type within its declared shape. -/
def checkBindings (program : Program ι) (bindings : Bindings) : Except RuntimeError Unit :=
  program.graph.parameters.forM (checkBinding bindings)

/-- The result of a node, given the extents of all places.  Nobody has counted the extents of a
bound value, and the call breaks down where they cannot be counted. -/
def readOutput (program : Program ι) (extents : List (Option Dims)) (id : NodeId) :
    Except RuntimeError HostTensor := do
  let some position := program.graph.position? id
    | throw (.invalidGraph s!"output {id.text} is not a node of the graph")
  let dims := (extents[position]?.join).getD []
  let slot ← program.plan.slotOf id
  let data ← (program.pool.read slot).mapError AllocationError.toRuntime
  let kind := ((program.graph.node? id).map Node.kind).getD .parameter
  let some count := elementCount? dims | throw (.panicked Size.overflowMessage)
  let data ← (data.view count).mapError fun error ↦
    .executionFailure id kind [dims] (.ofAccess error)
  (HostTensor.ofDims? dims data).mapError fun error ↦ .invalidGraph error.message

/-- The node that is blamed for a failure: the first failed instance, or else the node that the
failure is about. -/
def blamed (program : Program ι) (error : RuntimeError) : NodeId :=
  let failed := program.instances.find? fun inst ↦ inst.state = .failed
  (failed.map fun inst ↦ inst.node.id)
    <|> error.node?
    <|> program.graph.outputs.head?
    |>.getD ⟨0⟩

def afterFailure (program : Program ι) (error : RuntimeError) : Program ι :=
  if error.poisonsProgram then
    { program with poison := some ⟨program.blamed error, error.message⟩ }
  else program

def executionState (program : Program ι) (session : Session ω) : ExecutionState ι ω :=
  { instances := program.instances
    pool := program.pool
    extents := List.replicate program.graph.size none
    workspace := ⟨program.cache, session⟩ }

def withState (program : Program ι) (state : ExecutionState ι ω) : Program ι :=
  { program with
    instances := state.instances
    pool := state.pool
    cache := state.workspace.cache }

def context (program : Program ι) (bindings : Bindings) : ExecutionContext ι :=
  ⟨program.graph, ⟨program.registry, program.device⟩, bindings⟩

/-- Runs every instance once and answers the outputs of the graph in their declared order. -/
def execute (program : Program ι) (bindings : Bindings) (cancelled : Nat → ω → Bool)
    (session : Session ω) : Except RuntimeError (List HostTensor) × Program ι × Session ω :=
  match program.poison with
  | some poison => (.error (.programPoisoned poison.node poison.reason), program, session)
  | none =>
    match program.checkBindings bindings with
    | .error error => (.error error, program, session)
    | .ok () =>
      let (result, state) :=
        (program.executionState session).run (program.context bindings) cancelled
      let program := program.withState state
      match result with
      | .error error => (.error error, program.afterFailure error, state.workspace.session)
      | .ok () =>
        (program.graph.outputs.mapM (program.readOutput state.extents), program,
          state.workspace.session)

def never : Nat → ω → Bool := fun _ _ ↦ false

/-! ## Inspection -/

def isPoisoned (program : Program ι) : Bool := program.poison.isSome

def exportArtifacts (program : Program ι) :
    Except RuntimeError (List (NodeId × ArtifactBlob)) :=
  (program.instances.filter (·.state = .ready)).mapM fun inst ↦
    return (inst.node.id, ← inst.toArtifact program.registry program.device)

def instance? (program : Program ι) (id : NodeId) : Option (PrimitiveInstance ι) :=
  (program.graph.position? id).bind fun position ↦ program.instances[position]?

def text (program : Program ι) : String :=
  Text.record "Program"
    [("nodes", toString program.graph.size),
      ("slots", toString program.plan.slots.length),
      ("streams", toString program.schedule.streamCount),
      ("artifact_hits", toString program.artifactHits),
      ("poisoned",
        Text.option (program.poison.map fun poison ↦ poison.node.constructorText))]

end Program

end TensorEngine
