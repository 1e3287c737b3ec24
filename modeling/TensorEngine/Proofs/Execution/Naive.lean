import TensorEngine.Execution
import TensorEngine.Proofs.Graph.Reachability
import TensorEngine.Proofs.Kernel.Sequential
import TensorEngine.Proofs.Memory.Alias
import TensorEngine.Proofs.Memory.Storage
import TensorEngine.Proofs.Operation.Count

/-!
# Naive evaluation

The meaning of a graph: every node gets a tensor of its own, computed from those of its operands.
A parameter has the value bound to it, a constant its tensor, and a reshape the elements of its
operand under other extents; any other node has what the reference kernel computes into a fresh
tensor.  There are no slots, no implementations and no order other than that of the graph.
-/

namespace TensorEngine

attribute [ext] HostTensor

/-- A tensor as an argument of a kernel. -/
def HostTensor.toView (tensor : HostTensor) : TensorView := ⟨tensor.dims, tensor.data⟩

namespace Node

/-- The extents of a node's result, given those of its operands. -/
def extents? (node : Node) (bindings : Bindings) (operands : List Dims) : Option Dims :=
  if node.kind = .parameter then (bindings node.id).map HostTensor.dims
  else (node.op.outputDims operands).toOption

/-- The extents that a visit derives are those of the naive result. -/
theorem extents?_iff_resultDims {ι : Type} {context : ExecutionContext ι} {node : Node}
    {operands : List Dims} {dims : Dims} : node.extents? context.bindings operands = some dims ↔
      context.resultDims node operands = .ok dims := by
  unfold ExecutionContext.resultDims extents?
  split
  · cases context.bindings node.id <;> simp
  · rw [mapError_eq_ok_iff, toOption_eq_some_iff]

/-- What the reference kernel of a node computes into a fresh tensor of some extents. -/
def compute (node : Node) (operands : List HostTensor) (dims : Dims) : Option TensorData := do
  let count ← elementCount? dims
  let outcome := ReferenceImplementation.run (.ofOp node.op) (operands.map HostTensor.toView)
    ⟨dims, .zeros count node.output.dtype⟩
  outcome.ended.toOption.map fun _ ↦ outcome.out

/-- The elements of a node's result. -/
def elements (node : Node) (bindings : Bindings) (operands : List HostTensor) (dims : Dims) :
    Option TensorData :=
  match node.op with
  | .parameter =>
    ((bindings node.id).map HostTensor.data).filter (·.dtype = node.output.dtype)
  | .constant tensor => some tensor.data
  | .reshape _ => operands.head?.map HostTensor.data
  | .binary _ | .unary _ | .matMul _ | .reduce _ | .reorder _ => node.compute operands dims

/-- The result of a node, which has to stay within the declared shape. -/
def evaluate (node : Node) (bindings : Bindings) (operands : List HostTensor) :
    Option HostTensor := do
  let dims ← node.extents? bindings (operands.map HostTensor.dims)
  if node.output.shape.accepts dims then
    return ⟨dims, ← node.elements bindings operands dims⟩
  else none

end Node

namespace Graph

/-- The result of a node, given those of the nodes in front of it. -/
def evaluateNode (graph : Graph) (bindings : Bindings) (values : List (Option HostTensor))
    (node : Node) : Option HostTensor := do
  let operands ← (graph.producers node).mapM fun q ↦ values[q]?.join
  node.evaluate bindings operands

/-- The results of all nodes; a node has none when it or one of its operands cannot be computed. -/
def values (graph : Graph) (bindings : Bindings) : List (Option HostTensor) :=
  graph.nodes.foldl (fun values node ↦ values ++ [graph.evaluateNode bindings values node]) []

/-- The result of the node at a place. -/
def value (graph : Graph) (bindings : Bindings) (p : Nat) : Option HostTensor :=
  (graph.values bindings)[p]?.join

/-- The outputs of a graph all of whose nodes can be computed. -/
def evaluate (graph : Graph) (bindings : Bindings) : Option (List HostTensor) := do
  let values ← (graph.values bindings).mapM id
  graph.outputs.mapM fun id ↦ (graph.position? id).bind (values[·]?)

variable {graph : Graph} {bindings : Bindings} {node : Node} {p q : Nat} {tensor : HostTensor}

theorem length_values (graph : Graph) (bindings : Bindings) :
    (graph.values bindings).length = graph.size := length_foldl_snoc _

/-- The result of a node comes from those of its producers. -/
theorem value_eq (hnode : graph.nodes[p]? = some node) : graph.value bindings p =
    ((graph.producers node).mapM (graph.value bindings)).bind (node.evaluate bindings) := by
  have hfront : ∀ q ∈ graph.producers node,
      ((graph.values bindings).take p)[q]?.join = graph.value bindings q := by
    intro q hq
    rw [List.getElem?_take_of_lt ((edge_iff hnode).2 hq).lt]
    rfl
  have hmapM : (graph.producers node).mapM (fun q ↦ ((graph.values bindings).take p)[q]?.join) =
      (graph.producers node).mapM (graph.value bindings) := mapM_congr hfront
  rw [value, values, getElem?_foldl_snoc hnode, Option.join_some]
  show ((graph.producers node).mapM fun q ↦ ((graph.values bindings).take p)[q]?.join).bind _ = _
  rw [hmapM]

/-- A node has a result exactly when its producers have and it can be computed from theirs. -/
theorem value_eq_some_iff (hnode : graph.nodes[p]? = some node) :
    graph.value bindings p = some tensor ↔ ∃ operands,
      List.Forall₂ (fun q operand ↦ graph.value bindings q = some operand)
        (graph.producers node) operands ∧ node.evaluate bindings operands = some tensor := by
  rw [value_eq hnode, Option.bind_eq_some_iff]
  simp only [mapM_eq_some_iff]

/-- All nodes have results when none of them is missing. -/
private theorem values_eq_map_some_iff :
    (∃ values : List HostTensor, graph.values bindings = values.map some) ↔
      ∀ p < graph.size, ∃ tensor, graph.value bindings p = some tensor := by
  constructor
  · rintro ⟨values, hvalues⟩ p hp
    have hlength := congrArg List.length hvalues
    rw [length_values, List.length_map] at hlength
    rw [value, hvalues, List.getElem?_map, List.getElem?_eq_getElem (hlength ▸ hp)]
    exact ⟨_, rfl⟩
  · intro h
    refine ⟨(graph.values bindings).map (·.getD default), List.ext_getElem? fun p ↦ ?_⟩
    rw [List.map_map, List.getElem?_map]
    rcases Nat.lt_or_ge p graph.size with hp | hp
    · obtain ⟨tensor, htensor⟩ := h p hp
      rw [← length_values graph bindings] at hp
      rw [value, List.getElem?_eq_getElem hp, Option.join_some] at htensor
      rw [List.getElem?_eq_getElem hp, htensor]
      rfl
    · rw [List.getElem?_eq_none (length_values graph bindings ▸ hp)]
      rfl

/-- A graph has outputs exactly when all its nodes have results. -/
theorem evaluate_eq_some_iff {outputs : List HostTensor} :
    graph.evaluate bindings = some outputs ↔
      (∀ p < graph.size, ∃ tensor, graph.value bindings p = some tensor) ∧
        List.Forall₂ (fun id tensor ↦ (graph.position? id).bind (graph.value bindings) =
          some tensor) graph.outputs outputs := by
  have hmapM : ∀ values : List HostTensor, (graph.values bindings).mapM id = some values ↔
      graph.values bindings = values.map some := by
    intro values
    rw [mapM_eq_some_iff, ← List.forall₂_eq_eq_eq, List.forall₂_map_right_iff]
    rfl
  have hvalue : ∀ {values : List HostTensor}, graph.values bindings = values.map some →
      graph.value bindings = fun p ↦ values[p]? := by
    intro values hvalues
    funext p
    rw [value, hvalues, List.getElem?_map]
    cases values[p]? <;> rfl
  rw [← values_eq_map_some_iff]
  unfold evaluate
  simp only [Option.bind_eq_bind, Option.bind_eq_some_iff, mapM_eq_some_iff]
  constructor
  · rintro ⟨values, hvalues, houtputs⟩
    have hvalues := (hmapM values).1 (mapM_eq_some_iff.2 hvalues)
    rw [hvalue hvalues]
    exact ⟨⟨values, hvalues⟩, houtputs⟩
  · rintro ⟨⟨values, hvalues⟩, houtputs⟩
    rw [hvalue hvalues] at houtputs
    exact ⟨values, mapM_eq_some_iff.1 ((hmapM values).2 hvalues), houtputs⟩

/-- A graph with a node that has no result has no outputs. -/
theorem evaluate_eq_none (hp : p < graph.size) (h : graph.value bindings p = none) :
    graph.evaluate bindings = none := by
  refine Option.eq_none_iff_forall_ne_some.2 fun outputs houtputs ↦ ?_
  obtain ⟨tensor, hvalue⟩ := (evaluate_eq_some_iff.1 houtputs).1 p hp
  exact Option.some_ne_none tensor (hvalue.symm.trans h)

end Graph

/-! ## Results are tensors -/

/-- All values that are bound have as many elements as their extents need. -/
def Bindings.WellFormed (bindings : Bindings) : Prop :=
  ∀ id tensor, bindings id = some tensor → tensor.WellFormed

/-- All constants have as many elements as their extents need. -/
def Graph.ConstantsWellFormed (graph : Graph) : Prop :=
  ∀ node ∈ graph.nodes, ∀ tensor, node.op = .constant tensor → tensor.WellFormed

/-- A constant has the declared type. -/
theorem Graph.dtype_of_constant {graph : Graph} {node : Node} {p : Nat} {tensor : HostTensor}
    (hnode : graph.nodes[p]? = some node) (hop : node.op = .constant tensor) :
    tensor.dtype = node.output.dtype := by
  have hkind : node.kind ≠ .parameter := by
    rw [Node.kind, hop]
    nofun
  obtain ⟨layout, hlayout, hdtype, _⟩ := (Graph.fits hnode).derived.resolve_left hkind
  have hnil : graph.inputLayouts node = [] := by
    rw [← List.length_eq_zero_iff, Graph.length_inputLayouts hnode, hop]
    rfl
  rw [hop, hnil] at hlayout
  obtain rfl := Except.ok.inj hlayout
  exact hdtype

namespace Node

variable {graph : Graph} {bindings : Bindings} {node : Node} {p : Nat} {tensor : HostTensor}
  {operands : List HostTensor} {dims : Dims} {data : TensorData}

theorem evaluate_eq_some_iff : node.evaluate bindings operands = some tensor ↔
    node.extents? bindings (operands.map HostTensor.dims) = some tensor.dims ∧
      node.output.shape.accepts tensor.dims = true ∧
      node.elements bindings operands tensor.dims = some tensor.data := by
  unfold evaluate
  simp only [Option.bind_eq_bind, Option.bind_eq_some_iff]
  constructor
  · rintro ⟨dims, hdims, h⟩
    split at h
    · rename_i haccepts
      obtain ⟨data, hdata, h⟩ := Option.bind_eq_some_iff.1 h
      obtain rfl := Option.some.inj h
      exact ⟨hdims, haccepts, hdata⟩
    · cases h
  · rintro ⟨hdims, haccepts, hdata⟩
    exact ⟨tensor.dims, hdims, by rw [if_pos haccepts, hdata]; rfl⟩

/-- The four ways in which nodes get their results. -/
theorem op_cases (node : Node) : node.op = .parameter ∨ (∃ tensor, node.op = .constant tensor) ∨
    (∃ target, node.op = .reshape target) ∨ node.kind.isExecutable = true := by
  unfold kind
  cases node.op with
  | parameter => exact .inl rfl
  | constant tensor => exact .inr (.inl ⟨tensor, rfl⟩)
  | reshape target => exact .inr (.inr (.inl ⟨target, rfl⟩))
  | binary | unary | matMul | reduce | reorder => exact .inr (.inr (.inr rfl))

theorem elements_of_isExecutable (hkind : node.kind.isExecutable = true) :
    node.elements bindings operands dims = node.compute operands dims := by
  unfold kind at hkind
  unfold elements
  cases hop : node.op with
  | parameter | constant | reshape =>
    rw [hop] at hkind
    cases hkind
  | binary | unary | matMul | reduce | reorder => rfl

theorem extents?_eq_some_iff (hkind : node.kind ≠ .parameter) {inputs : List Dims} :
    node.extents? bindings inputs = some dims ↔ node.op.outputDims inputs = .ok dims := by
  rw [extents?, if_neg hkind, toOption_eq_some_iff]

theorem isExecutable_ofOp (hkind : node.kind.isExecutable = true) :
    (RefKernel.ofOp node.op).kind.isExecutable = true := by
  unfold kind at hkind
  cases hop : node.op with
  | parameter | constant | reshape =>
    rw [hop] at hkind
    cases hkind
  | binary | unary | matMul | reduce | reorder => rfl

/-- A kernel that computes something computes as many elements as there is room for, of the
declared type. -/
theorem compute_spec (hkind : node.kind.isExecutable = true)
    (h : node.compute operands dims = some data) :
    elementCount? dims = some data.size ∧ data.dtype = node.output.dtype := by
  unfold compute at h
  simp only [Option.bind_eq_bind, Option.bind_eq_some_iff, Option.map_eq_some_iff] at h
  obtain ⟨count, hcount, _, _, rfl⟩ := h
  have hregular := ReferenceImplementation.regular_run (isExecutable_ofOp hkind)
    (operands.map HostTensor.toView) dims
  rw [hregular.size_eq, hregular.dtype_eq, TensorData.size_zeros, TensorData.dtype_zeros]
  exact ⟨hcount, rfl⟩

/-- The result of a node is a tensor of the declared type, when its operands are. -/
theorem evaluate_spec (hconstants : graph.ConstantsWellFormed) (hbindings : bindings.WellFormed)
    (hnode : graph.nodes[p]? = some node)
    (hoperands : List.Forall₂ (fun q operand ↦ operand.WellFormed ∧
      ∀ other, graph.nodes[q]? = some other → operand.dtype = other.output.dtype)
      (graph.producers node) operands)
    (h : node.evaluate bindings operands = some tensor) :
    tensor.WellFormed ∧ tensor.dtype = node.output.dtype := by
  obtain ⟨hdims, _, hdata⟩ := evaluate_eq_some_iff.1 h
  have harity : operands.length = node.op.arity := by
    rw [← hoperands.length_eq, Graph.length_producers hnode]
  rcases node.op_cases with hop | ⟨constant, hop⟩ | ⟨target, hop⟩ | hkind
  · have hkind : node.kind = .parameter := by rw [kind, hop]; rfl
    rw [extents?, if_pos hkind, Option.map_eq_some_iff] at hdims
    simp only [elements, hop, Option.filter_eq_some_iff, Option.map_eq_some_iff] at hdata
    obtain ⟨binding, hbinding, hdims⟩ := hdims
    obtain ⟨⟨binding', hbinding', hdata⟩, hdtype⟩ := hdata
    obtain rfl := Option.some.inj (hbinding.symm.trans hbinding')
    obtain rfl : binding = tensor := HostTensor.ext hdims hdata
    exact ⟨hbindings _ _ hbinding, of_decide_eq_true hdtype⟩
  · have hkind : node.kind = .constant := by rw [kind, hop]; rfl
    rw [hop] at harity
    obtain rfl := List.length_eq_zero_iff.1 harity
    rw [extents?_eq_some_iff (by rw [hkind]; nofun), hop] at hdims
    simp only [elements, hop, Option.some.injEq] at hdata
    obtain rfl : constant = tensor := HostTensor.ext (Except.ok.inj hdims) hdata
    exact ⟨hconstants node (List.mem_of_getElem? hnode) constant hop,
      Graph.dtype_of_constant hnode hop⟩
  · have hkind : node.kind = .reshape := by rw [kind, hop]; rfl
    rw [hop] at harity
    obtain ⟨operand, rfl⟩ := List.length_eq_one_iff.1 harity
    rw [extents?_eq_some_iff (by rw [hkind]; nofun), hop] at hdims
    simp only [elements, hop, List.head?_cons, Option.map_some, Option.some.injEq] at hdata
    obtain ⟨source, hsource, hedge⟩ := Graph.producers_of_reshape hnode hkind
    rw [hsource, List.forall₂_cons] at hoperands
    obtain ⟨⟨hsized, hdtype⟩, _⟩ := hoperands
    obtain ⟨total, htotal, hcount⟩ := elementCount?_reshape hdims
    refine ⟨?_, ?_⟩
    · rw [HostTensor.WellFormed, HostTensor.size, ← hdata, hcount, ← htotal]
      exact hsized
    · obtain ⟨other, hother⟩ := Graph.exists_node (Nat.lt_trans hedge.lt hedge.lt_size)
      rw [Graph.dtype_of_reshape hnode hkind hedge hother, ← hdtype other hother, HostTensor.dtype,
        ← hdata]
      rfl
  · rw [elements_of_isExecutable hkind] at hdata
    exact compute_spec hkind hdata

end Node

/-- The results of all nodes are tensors of the declared types. -/
theorem Graph.value_spec {graph : Graph} {bindings : Bindings} {p : Nat} {node : Node}
    {tensor : HostTensor} (hconstants : graph.ConstantsWellFormed)
    (hbindings : bindings.WellFormed) (hnode : graph.nodes[p]? = some node)
    (h : graph.value bindings p = some tensor) :
    tensor.WellFormed ∧ tensor.dtype = node.output.dtype := by
  induction p using Nat.strongRecOn generalizing node tensor with
  | ind p ih =>
    obtain ⟨operands, hoperands, hvalue⟩ := (value_eq_some_iff hnode).1 h
    refine Node.evaluate_spec hconstants hbindings hnode ?_ hvalue
    have hedges : ∀ q ∈ graph.producers node, graph.Edge q p := fun q ↦ (edge_iff hnode).2
    refine ((List.forall₂_and_left _ _).2 ⟨hedges, hoperands⟩).imp fun q operand h ↦ ?_
    obtain ⟨hedge, hq⟩ := h
    obtain ⟨source, hsource⟩ := exists_node (Nat.lt_trans hedge.lt hedge.lt_size)
    exact ⟨(ih q hedge.lt hsource hq).1, fun other hother ↦ (ih q hedge.lt hother hq).2⟩

end TensorEngine
