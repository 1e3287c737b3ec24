import TensorEngine.Graph

/-!
# Building graphs

A builder appends nodes one at a time and names them by their place.  `add` derives the layout of
the result from the layouts of the operands; `push` takes it as declared.
-/

namespace TensorEngine

/-- The nodes so far. -/
structure GraphBuilder where
  /-- The nodes in the order in which they were appended. -/
  nodes : List Node := []
deriving DecidableEq, Repr, Inhabited

namespace GraphBuilder

def nextId (builder : GraphBuilder) : NodeId := ⟨UInt32.ofNat builder.nodes.length⟩

def layoutOf (builder : GraphBuilder) (id : NodeId) : Except GraphError Layout :=
  match Node.layoutIn? builder.nodes id with
  | some layout => .ok layout
  | none => .error (.unknownNode id)

/-- Appends a node with a declared result. -/
def push (builder : GraphBuilder) (op : OpSpec) (inputs : List NodeId) (output : Layout) :
    NodeId × GraphBuilder :=
  (builder.nextId, ⟨builder.nodes ++ [⟨builder.nextId, op, inputs, [output]⟩]⟩)

/-- Appends a node whose result is derived from its operands. -/
def add (builder : GraphBuilder) (op : OpSpec) (inputs : List NodeId) :
    Except GraphError (NodeId × GraphBuilder) := do
  let layouts ← inputs.mapM builder.layoutOf
  let output ← (op.outputLayout layouts).mapError .underivable
  return builder.push op inputs output

def parameter (builder : GraphBuilder) (layout : Layout) : NodeId × GraphBuilder :=
  builder.push .parameter [] layout

def constant (builder : GraphBuilder) (tensor : HostTensor) : NodeId × GraphBuilder :=
  builder.push (.constant tensor) [] (.ofDims tensor.dtype tensor.dims)

/-- The graph of the nodes so far with these outputs. -/
def finish? (builder : GraphBuilder) (outputs : List NodeId) : Except GraphError Graph :=
  Graph.ofNodes? builder.nodes outputs

end GraphBuilder

end TensorEngine
