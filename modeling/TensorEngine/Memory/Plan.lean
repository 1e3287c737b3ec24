import TensorEngine.Graph.Reachability

/-!
# Memory plans

Every node has a buffer for its result.  A reshape shares the buffer of its operand, which makes
groups of buffers; a group is alive from the place of its first member to the last place that
reads any of them, and an output stays alive to the end.  Groups of one element type whose lives
do not meet may share a slot.  Parameters, constants and outputs keep a slot to themselves.

On several streams the order of places is not the order of events, so a slot is handed on only
when everything that touches it must have happened before.
-/

namespace TensorEngine

/-- The places at which a buffer is alive, both ends included. -/
structure LiveRange where
  start : Nat
  /-- The last place. -/
  finish : Nat
deriving DecidableEq, Repr, Inhabited

namespace LiveRange

/-- Whether some place belongs to both ranges. -/
def overlaps (a b : LiveRange) : Bool := a.start ≤ b.finish && b.start ≤ a.finish

/-- The smallest range that covers both. -/
def union (a b : LiveRange) : LiveRange := ⟨min a.start b.start, max a.finish b.finish⟩

end LiveRange

/-- What buffers are used for. -/
structure BufferUsage where
  /-- A value bound from outside. -/
  parameter : Bool := false
  /-- A value that is asked for. -/
  result : Bool := false
  /-- A value in between. -/
  temporary : Bool := false
  /-- A value that is given with the graph. -/
  constant : Bool := false
deriving DecidableEq, Repr, Inhabited

namespace BufferUsage

def merge (a b : BufferUsage) : BufferUsage :=
  ⟨a.parameter || b.parameter, a.result || b.result, a.temporary || b.temporary,
    a.constant || b.constant⟩

/-- Whether the buffer must keep a slot to itself. -/
def isDedicated (usage : BufferUsage) : Bool :=
  usage.parameter || usage.result || usage.constant

/-- A letter for each use, and a mark for a buffer that keeps its slot to itself. -/
def letters (usage : BufferUsage) : String :=
  let letter (used : Bool) (text : String) := if used then text else ""
  letter usage.parameter "P" ++ letter usage.result "R" ++ letter usage.temporary "T"
    ++ letter usage.constant "C" ++ letter usage.isDedicated "!"

/-- The use of a node's result. -/
def ofNode (graph : Graph) (node : Node) : BufferUsage :=
  { parameter := node.kind = .parameter
    constant := node.kind = .constant
    temporary := node.kind ≠ .parameter ∧ node.kind ≠ .constant
    result := graph.isOutput node.id }

end BufferUsage

/-- The larger of two capacities; open when one of them is. -/
def maxCapacity : Option Nat → Option Nat → Option Nat
  | some a, some b => some (max a b)
  | _, _ => none

structure BufferSpec where
  /-- The node whose result it holds. -/
  node : NodeId
  /-- The place of the node. -/
  position : Nat
  dtype : DType
  /-- The elements that any admitted invocation needs; none when an axis is unbounded. -/
  capacity : Option Nat
  usage : BufferUsage
  /-- The place of the buffer that the group started with. -/
  aliasGroup : Nat
  /-- The node whose buffer is shared. -/
  aliasOf : Option NodeId
  /-- The life of the whole group. -/
  liveRange : LiveRange
  slot : Nat
deriving DecidableEq, Repr, Inhabited

/-- A slot of the pool. -/
structure BufferSlot where
  id : Nat
  dtype : DType
  /-- The elements that its buffers need; none when one of them is unbounded. -/
  capacity : Option Nat
  usage : BufferUsage
deriving DecidableEq, Repr, Inhabited

/-- Why there is no plan. -/
inductive PlanError where
  | aliasTypeMismatch (node : NodeId) (dtype source : DType)
deriving DecidableEq, Repr

def PlanError.message : PlanError → String
  | .aliasTypeMismatch node dtype source =>
    s!"node {node.text} aliases a {source.name} buffer as {dtype.name}"

/-- The buffers and slots of a graph. -/
structure MemoryPlan where
  /-- One buffer per place. -/
  buffers : List BufferSpec
  /-- The slots, each at its number. -/
  slots : List BufferSlot
deriving DecidableEq, Repr, Inhabited

/-! ## Lives -/

namespace Graph

/-- The places that read the result of a place; once for every operand. -/
def consumers (graph : Graph) (position : Nat) : List Nat :=
  (List.range graph.size).flatMap fun reader ↦
    (graph.inputPositions reader).filterMap fun input ↦
      if input = position then some reader else none

/-- The places that touch the buffer of a place: the producer and the readers. -/
def accessors (graph : Graph) (position : Nat) : List Nat := position :: graph.consumers position

/-- The life of the buffer of one node: to its last reader, or to the end of the graph. -/
def liveRange (graph : Graph) (position : Nat) (node : Node) : LiveRange :=
  if graph.isOutput node.id then ⟨position, graph.size⟩
  else ⟨position, (graph.consumers position).foldl max position⟩

/-! ## Groups -/

/-- The place whose buffer a reshape shares. -/
def aliasSource? (graph : Graph) (node : Node) : Option Nat :=
  if node.kind = .reshape then (graph.producers node).head? else none

/-- The place where the group of each place started. -/
def aliasRoots (graph : Graph) : List Nat :=
  graph.nodes.foldl
    (fun roots node ↦
      roots ++ [match graph.aliasSource? node with
        | some source => roots.getD source roots.length
        | none => roots.length])
    []

/-- Checks that every reshape keeps the element type of the group that it joins. -/
def checkAliases (graph : Graph) : Except PlanError Unit :=
  (graph.nodes.zip graph.aliasRoots).forM fun (node, root) ↦
    let source := (graph.nodes.getD root default).output.dtype
    if source ≠ node.output.dtype then
      .error (.aliasTypeMismatch node.id node.output.dtype source)
    else .ok ()

end Graph

/-- Buffers that share their elements. -/
structure AliasGroup where
  /-- The place of the first member. -/
  root : Nat
  dtype : DType
  /-- The elements that the members need. -/
  capacity : Option Nat
  usage : BufferUsage
  range : LiveRange
  /-- The places that touch a member. -/
  accessors : List Nat
deriving DecidableEq, Repr, Inhabited

namespace AliasGroup

def single (graph : Graph) (position : Nat) (node : Node) : AliasGroup :=
  { root := position
    dtype := node.output.dtype
    capacity := node.output.capacity?
    usage := .ofNode graph node
    range := graph.liveRange position node
    accessors := graph.accessors position }

/-- Adds the members of a later group. -/
def join (a b : AliasGroup) : AliasGroup :=
  { a with
    capacity := maxCapacity a.capacity b.capacity
    usage := a.usage.merge b.usage
    range := a.range.union b.range
    accessors := a.accessors ++ b.accessors }

/-- The group that started at a place. -/
def ofRoot (graph : Graph) (root : Nat) : AliasGroup :=
  let members := (graph.nodes.zip graph.aliasRoots).zipIdx.filterMap
    fun ((node, start), position) ↦
      if start = root then some (single graph position node) else none
  match members with
  | [] => default
  | first :: rest => rest.foldl join first

/-- All groups, in the order in which they start. -/
def ofGraph (graph : Graph) : List AliasGroup :=
  graph.aliasRoots.zipIdx.filterMap fun (root, position) ↦
    if root = position then some (ofRoot graph root) else none

end AliasGroup

/-! ## Slots -/

/-- A slot while slots are handed out. -/
structure SlotUse where
  slot : BufferSlot
  /-- The last place at which one of its groups is alive. -/
  finish : Nat
  /-- The places that touch it. -/
  accessors : List Nat
deriving DecidableEq, Repr, Inhabited

namespace SlotUse

/-- Whether a group may take over a slot.  The groups in it are over, and on several streams all
places that touch it must have run before the group starts. -/
def admits (reach : Option Reachability) (group : AliasGroup) (use : SlotUse) : Bool :=
  !use.slot.usage.isDedicated && use.slot.dtype = group.dtype && use.finish < group.range.start
    && match reach with
      | some reach => use.accessors.all (reach.happensBefore · group.root)
      | none => true

def fresh (id : Nat) (group : AliasGroup) : SlotUse :=
  ⟨⟨id, group.dtype, group.capacity, group.usage⟩, group.range.finish, group.accessors⟩

def add (use : SlotUse) (group : AliasGroup) : SlotUse :=
  { slot := { use.slot with
      capacity := maxCapacity use.slot.capacity group.capacity
      usage := use.slot.usage.merge group.usage }
    finish := max use.finish group.range.finish
    accessors := use.accessors ++ group.accessors }

/-- The first slot that a group may take over. -/
def reusable? (reach : Option Reachability) (uses : List SlotUse) (group : AliasGroup) :
    Option Nat :=
  if group.usage.isDedicated then none else uses.findIdx? (admits reach group)

/-- Gives one group a slot; answers the slots and the number of the one it got. -/
def assign (reach : Option Reachability) (uses : List SlotUse) (group : AliasGroup) :
    List SlotUse × Nat :=
  match reusable? reach uses group with
  | some slot => (uses.modify slot (·.add group), slot)
  | none => (uses ++ [fresh uses.length group], uses.length)

/-- Gives every group a slot, in order; answers the slots and each group's root with its slot. -/
def assignAll (reach : Option Reachability) (groups : List AliasGroup) :
    List SlotUse × List (Nat × Nat) :=
  groups.foldl
    (fun (uses, slotOf) group ↦
      let (uses, slot) := assign reach uses group
      (uses, slotOf ++ [(group.root, slot)]))
    ([], [])

end SlotUse

namespace MemoryPlan

/-- The buffer of a node, given the groups and the slots that they got. -/
def buffer (graph : Graph) (groups : List AliasGroup) (slotOf : List (Nat × Nat))
    (node : Node) (position root : Nat) : BufferSpec :=
  { node := node.id
    position
    dtype := node.output.dtype
    capacity := node.output.capacity?
    usage := .ofNode graph node
    aliasGroup := root
    aliasOf := (graph.aliasSource? node).bind fun source ↦ (graph.nodes[source]?).map Node.id
    liveRange := ((groups.find? (·.root = root)).map AliasGroup.range).getD default
    slot := (slotOf.lookup root).getD 0 }

def ofGraph (graph : Graph) (streams : Nat) : Except PlanError MemoryPlan := do
  graph.checkAliases
  let groups := AliasGroup.ofGraph graph
  let reach := if 1 < streams then some (Reachability.ofGraph graph) else none
  let (uses, slotOf) := SlotUse.assignAll reach groups
  return {
    buffers := (graph.nodes.zip graph.aliasRoots).zipIdx.map fun ((node, root), position) ↦
      buffer graph groups slotOf node position root
    slots := uses.map SlotUse.slot }

def buffer? (plan : MemoryPlan) (node : NodeId) : Option BufferSpec :=
  plan.buffers.find? (·.node = node)

def slot? (plan : MemoryPlan) (node : NodeId) : Option Nat :=
  (plan.buffer? node).map BufferSpec.slot

/-- Whether two buffers of different groups are alive together in one slot. -/
def Conflict (a b : BufferSpec) : Prop :=
  a.slot = b.slot ∧ a.aliasGroup ≠ b.aliasGroup ∧ a.liveRange.overlaps b.liveRange

instance (a b : BufferSpec) : Decidable (Conflict a b) :=
  inferInstanceAs (Decidable (_ ∧ _))

/-- The pairs among `buffers` that are in conflict. -/
def conflictsAmong : List BufferSpec → List (NodeId × NodeId)
  | [] => []
  | a :: rest =>
    (rest.filter fun b ↦ Conflict a b).map (fun b ↦ (a.node, b.node)) ++ conflictsAmong rest

def conflicts (plan : MemoryPlan) : List (NodeId × NodeId) := conflictsAmong plan.buffers

end MemoryPlan

end TensorEngine
