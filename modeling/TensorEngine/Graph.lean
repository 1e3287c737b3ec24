import TensorEngine.Fingerprint
import TensorEngine.Operation.Inference

/-!
# Graphs

A graph lists operations so that every operand is the output of an earlier one.  `Graph.ofNodes?`
is the only way to make one: it checks the nodes in their order and refuses the first that does
not fit.  The position of a node in the list is its place in the dependency order.
-/

namespace TensorEngine

open Wire Fingerprint

structure NodeId where
  index : UInt32
deriving DecidableEq, Repr, Inhabited

namespace NodeId

/-- The text of a name: `%3`. -/
def text (id : NodeId) : String := "%" ++ toString id.index

/-- The text of a name inside the text of a record: `NodeId(3)`. -/
def constructorText (id : NodeId) : String := Text.applied "NodeId" [toString id.index]

instance : Encode NodeId := ⟨fun id ↦ encode id.index⟩

end NodeId

/-- One operation of a graph.  The operands are the outputs of the named nodes. -/
structure Node where
  id : NodeId
  op : OpSpec
  inputs : List NodeId
  outputs : List Layout
deriving DecidableEq, Repr, Inhabited

namespace Node

def kind (node : Node) : OperationKind := node.op.kind

/-- The declared layout of the first result. -/
def output (node : Node) : Layout := node.outputs.headD default

/-- The bytes that identify a compiled form apart from concrete extents: kind, parameters and
declared layouts, each in a frame of its own. -/
def signatureBytes (node : Node) (inputs : List Layout) : Bytes :=
  frameText node.kind.label ++ frameOf node.op ++ frameOf inputs ++ frameOf node.outputs

/-- The fingerprint of what a compiled form depends on. -/
def signature (node : Node) (inputs : List Layout) : UInt64 :=
  ofBytes (node.signatureBytes inputs)

instance : Encode Node where
  encode node := encode node.id ++ encode node.op ++ encode node.inputs ++ encode node.outputs

end Node

/-- Why nodes are no graph. -/
inductive GraphError where
  | outputCount (node : NodeId) (count : Nat)
  | inputCount (node : NodeId) (op : OpSpec) (count : Nat)
  | notEarlier (node input : NodeId)
  | inference (node : NodeId) (cause : InferenceError)
  | layoutMismatch (node : NodeId) (declared inferred : Layout)
  | duplicateId (node : NodeId)
  | noOutputs
  | unknownOutput (output : NodeId)
  | unknownNode (node : NodeId)
  | underivable (cause : InferenceError)
deriving DecidableEq, Repr

def GraphError.message : GraphError → String
  | .outputCount node count =>
    s!"node {node.text} declares {count} outputs; every operation produces exactly one"
  | .inputCount node op count =>
    s!"node {node.text} ({op.kind.label}) takes {op.arity} inputs, got {count}"
  | .notEarlier node input =>
    s!"node {node.text} refers to {input.text}, which is not an earlier node"
  | .inference node cause => s!"node {node.text}: {cause.message}"
  | .layoutMismatch node declared inferred =>
    s!"node {node.text} declares output {declared.text}, operation produces {inferred.text}"
  | .duplicateId node => s!"node id {node.text} is used twice"
  | .noOutputs => "graph declares no outputs"
  | .unknownOutput output => s!"graph output {output.text} is not a node"
  | .unknownNode node => s!"{node.text} is not part of this graph"
  | .underivable cause => cause.message

namespace Node

/-- The layout of the node called `id` among `nodes`. -/
def layoutIn? (nodes : List Node) (id : NodeId) : Option Layout :=
  (nodes.find? (·.id = id)).map output

def operandLayouts (node : Node) (earlier : List Node) : Except GraphError (List Layout) :=
  node.inputs.mapM fun input ↦
    match layoutIn? earlier input with
    | some layout => .ok layout
    | none => .error (.notEarlier node.id input)

/-- Checks a node against the nodes in front of it: one result, as many operands as the operation
takes, all from earlier nodes, and a declared result of the derived type and rank. -/
def check (node : Node) (earlier : List Node) : Except GraphError Unit := do
  if node.outputs.length ≠ 1 then throw (.outputCount node.id node.outputs.length)
  if node.inputs.length ≠ node.op.arity then
    throw (.inputCount node.id node.op node.inputs.length)
  let layouts ← node.operandLayouts earlier
  if node.kind = .parameter then return
  let inferred ← (node.op.outputLayout layouts).mapError (.inference node.id)
  if inferred.dtype ≠ node.output.dtype ∨ inferred.shape.rank ≠ node.output.shape.rank then
    throw (.layoutMismatch node.id node.output inferred)

/-- Checks nodes in their order; `earlier` are the nodes in front of them. -/
def checkAll (earlier : List Node) : List Node → Except GraphError Unit
  | [] => .ok ()
  | node :: rest => do
    node.check earlier
    if earlier.any (·.id = node.id) then throw (.duplicateId node.id)
    checkAll (earlier ++ [node]) rest

end Node

/-- Checks that the nodes are in dependency order and that the outputs are nodes. -/
def checkGraph (nodes : List Node) (outputs : List NodeId) : Except GraphError Unit := do
  Node.checkAll [] nodes
  if outputs = [] then throw .noOutputs
  outputs.forM fun output ↦
    if nodes.any (·.id = output) then .ok () else .error (.unknownOutput output)

structure Graph where
  nodes : List Node
  /-- The nodes whose results are asked for. -/
  outputs : List NodeId
  /-- The nodes are in dependency order and the outputs are nodes. -/
  valid : checkGraph nodes outputs = .ok ()

namespace Graph

/-- The graph of the nodes, or the first fault. -/
def ofNodes? (nodes : List Node) (outputs : List NodeId) : Except GraphError Graph :=
  match h : checkGraph nodes outputs with
  | .ok () => .ok ⟨nodes, outputs, h⟩
  | .error error => .error error

def size (graph : Graph) : Nat := graph.nodes.length

/-- The place of a node in the dependency order. -/
def position? (graph : Graph) (id : NodeId) : Option Nat :=
  graph.nodes.findIdx? (·.id = id)

def node? (graph : Graph) (id : NodeId) : Option Node := graph.nodes.find? (·.id = id)

/-- The nodes whose values are bound from outside. -/
def parameters (graph : Graph) : List Node := graph.nodes.filter (·.kind = .parameter)

/-- The places of the producers of a node's operands. -/
def producers (graph : Graph) (node : Node) : List Nat := node.inputs.filterMap graph.position?

/-- The places of the producers of the operands of the node at a place. -/
def inputPositions (graph : Graph) (position : Nat) : List Nat :=
  match graph.nodes[position]? with
  | some node => graph.producers node
  | none => []

/-- The declared layouts of a node's operands. -/
def inputLayouts (graph : Graph) (node : Node) : List Layout :=
  node.inputs.filterMap fun input ↦ (graph.node? input).map Node.output

/-- Whether the result of a node is asked for. -/
def isOutput (graph : Graph) (id : NodeId) : Bool := id ∈ graph.outputs

end Graph

end TensorEngine
