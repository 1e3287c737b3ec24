import TensorEngine.Graph
import TensorEngine.Proofs.Sequencing
import Mathlib.Logic.Relation

/-!
# Graphs are ordered

A graph is a list of nodes that passed `checkGraph`.  The lemmas here say what the check gives:
names are unique, so a name and a place determine each other; every operand is the result of an
earlier place; and the declared layout of a result has the element type and the rank that the
operation derives from the declared layouts of its operands.
-/

namespace TensorEngine

/-! ## What the check says about one node -/

/-- A node fits behind the nodes in front of it, where its operands have some layouts. -/
structure Node.Fits (node : Node) (earlier : List Node) (operands : List Layout) : Prop where
  outputs_eq : node.outputs = [node.output]
  length_inputs : node.inputs.length = node.op.arity
  operands_eq : node.operandLayouts earlier = .ok operands
  /-- The declared result has the type and the rank that the operation derives. -/
  derived : node.kind = .parameter ∨ ∃ layout, node.op.outputLayout operands = .ok layout ∧
    layout.dtype = node.output.dtype ∧ layout.shape.rank = node.output.shape.rank

namespace Node

theorem fits_of_check {node : Node} {earlier : List Node} (h : node.check earlier = .ok ()) :
    ∃ operands, node.Fits earlier operands := by
  unfold check at h
  by_cases hout : node.outputs.length = 1
  · by_cases hin : node.inputs.length = node.op.arity
    · simp only [hout, hin, ne_eq, not_true_eq_false, if_false, bind_eq_ok_iff] at h
      obtain ⟨operands, hops, h⟩ := h
      obtain ⟨layout, hlayout⟩ := List.length_eq_one_iff.1 hout
      refine ⟨operands, by simp [Node.output, hlayout], hin, hops, ?_⟩
      by_cases hkind : node.kind = .parameter
      · exact .inl hkind
      · simp only [hkind, if_false, bind_eq_ok_iff] at h
        obtain ⟨inferred, hinferred, h⟩ := h
        refine .inr ⟨inferred, mapError_eq_ok_iff.1 hinferred, ?_⟩
        split at h
        · cases h
        · rename_i hsame
          exact ⟨not_not.1 fun hd ↦ hsame (.inl hd), not_not.1 fun hr ↦ hsame (.inr hr)⟩
    · simp [hout, hin] at h
  · simp [hout] at h

/-- Every node passed its check, and its name is new. -/
theorem check_of_checkAll {node : Node} {post : List Node} :
    ∀ {earlier pre : List Node}, checkAll earlier (pre ++ node :: post) = .ok () →
      node.check (earlier ++ pre) = .ok () ∧ ∀ other ∈ earlier ++ pre, other.id ≠ node.id := by
  intro earlier pre
  induction pre generalizing earlier with
  | nil =>
    intro h
    rw [List.nil_append, checkAll, bind_eq_ok_iff] at h
    obtain ⟨_, hcheck, h⟩ := h
    split at h
    · cases h
    · rename_i hnew
      simp only [List.any_eq_true, decide_eq_true_eq, not_exists, not_and] at hnew
      simpa using ⟨hcheck, hnew⟩
  | cons first pre ih =>
    intro h
    rw [List.cons_append, checkAll, bind_eq_ok_iff] at h
    obtain ⟨_, _, h⟩ := h
    split at h
    · cases h
    · simpa using ih h

end Node

namespace Graph

variable {graph : Graph} {node other : Node} {id : NodeId} {p q : Nat}

theorem checkAll_nodes (graph : Graph) : Node.checkAll [] graph.nodes = .ok () := by
  obtain ⟨_, h, _⟩ := bind_eq_ok_iff.1 graph.valid
  exact h

theorem outputs_ne_nil (graph : Graph) : graph.outputs ≠ [] := by
  intro h
  have hvalid := graph.valid
  rw [checkGraph, h, checkAll_nodes] at hvalid
  cases hvalid

/-- Every output is the name of a node. -/
theorem exists_of_mem_outputs (h : id ∈ graph.outputs) :
    ∃ (p : Nat) (node : Node), graph.nodes[p]? = some node ∧ node.id = id := by
  have hvalid := graph.valid
  simp only [checkGraph, checkAll_nodes, ok_bind, if_neg graph.outputs_ne_nil,
    forM_eq_ok_iff] at hvalid
  have hid := hvalid id h
  split at hid
  · rename_i hany
    obtain ⟨node, hmem, hnode⟩ := List.any_eq_true.1 hany
    obtain ⟨p, hp⟩ := List.mem_iff_getElem?.1 hmem
    exact ⟨p, node, hp, of_decide_eq_true hnode⟩
  · cases hid

theorem lt_size (h : graph.nodes[p]? = some node) : p < graph.size :=
  (List.getElem?_eq_some_iff.1 h).1

theorem exists_node (h : p < graph.size) : ∃ node, graph.nodes[p]? = some node :=
  ⟨graph.nodes[p], List.getElem?_eq_getElem h⟩

/-- The nodes from some place on start with the one at this place. -/
theorem node_of_drop {nodes : List Node} (h : graph.nodes.drop p = node :: nodes) :
    graph.nodes[p]? = some node ∧ graph.nodes.drop (p + 1) = nodes := by
  rw [← Nat.add_zero p, ← List.getElem?_drop, Nat.add_zero, ← List.drop_drop, h]
  exact ⟨rfl, rfl⟩

private theorem split_at (h : graph.nodes[p]? = some node) :
    graph.nodes = graph.nodes.take p ++ node :: graph.nodes.drop (p + 1) := by
  obtain ⟨hp, rfl⟩ := List.getElem?_eq_some_iff.1 h
  rw [List.getElem_cons_drop, List.take_append_drop]

private theorem check_at (h : graph.nodes[p]? = some node) :
    node.check (graph.nodes.take p) = .ok () ∧
      ∀ other ∈ graph.nodes.take p, other.id ≠ node.id := by
  have hall := graph.checkAll_nodes
  rw [split_at h] at hall
  simpa using Node.check_of_checkAll hall

/-! ## Names and places -/

private theorem id_ne (hp : graph.nodes[p]? = some node) (hq : graph.nodes[q]? = some other)
    (hlt : p < q) : node.id ≠ other.id := by
  refine (check_at hq).2 node ?_
  rw [List.mem_iff_getElem?]
  exact ⟨p, by rw [List.getElem?_take_of_lt hlt, hp]⟩

/-- No two places have a node of the same name. -/
theorem id_injective (hp : graph.nodes[p]? = some node) (hq : graph.nodes[q]? = some other)
    (h : node.id = other.id) : p = q := by
  rcases Nat.lt_trichotomy p q with hlt | heq | hlt
  · exact absurd h (id_ne hp hq hlt)
  · exact heq
  · exact absurd h.symm (id_ne hq hp hlt)

/-- A name leads to the place of its node, and to no other. -/
theorem position?_eq_some_iff :
    graph.position? id = some p ↔ ∃ node, graph.nodes[p]? = some node ∧ node.id = id := by
  rw [position?, List.findIdx?_eq_some_iff_getElem]
  constructor
  · rintro ⟨hp, hid, _⟩
    exact ⟨graph.nodes[p], List.getElem?_eq_getElem hp, of_decide_eq_true hid⟩
  · rintro ⟨node, hp, rfl⟩
    obtain ⟨hlt, hnode⟩ := List.getElem?_eq_some_iff.1 hp
    refine ⟨hlt, by simp [hnode], fun j hj hid ↦ ?_⟩
    have hj' : graph.nodes[j]? = some graph.nodes[j] :=
      List.getElem?_eq_getElem (Nat.lt_trans hj hlt)
    exact id_ne hj' hp hj (of_decide_eq_true hid)

theorem position?_id (h : graph.nodes[p]? = some node) : graph.position? node.id = some p :=
  position?_eq_some_iff.2 ⟨node, h, rfl⟩

theorem node?_id (h : graph.nodes[p]? = some node) : graph.node? node.id = some node := by
  obtain ⟨hlt, hnode⟩ := List.getElem?_eq_some_iff.1 h
  rw [node?, List.find?_eq_some_iff_getElem]
  refine ⟨by simp, p, hlt, hnode, fun j hj ↦ ?_⟩
  have hj' : graph.nodes[j]? = some graph.nodes[j] := List.getElem?_eq_getElem (Nat.lt_trans hj hlt)
  simpa using id_ne hj' h hj

/-! ## Operands -/

private theorem layoutIn?_eq_some {nodes : List Node} {layout : Layout}
    (h : Node.layoutIn? nodes id = some layout) :
    ∃ (q : Nat) (node : Node), nodes[q]? = some node ∧ node.id = id ∧ node.output = layout := by
  obtain ⟨node, hfind, rfl⟩ := Option.map_eq_some_iff.1 h
  obtain ⟨hid, q, hq, hnode, _⟩ := List.find?_eq_some_iff_getElem.1 hfind
  exact ⟨q, node, by rw [List.getElem?_eq_getElem hq, hnode], of_decide_eq_true hid, rfl⟩

/-- Every operand is the result of an earlier place, with the layout declared there. -/
private theorem forall₂_operands {operands : List Layout}
    (h : node.Fits (graph.nodes.take p) operands) :
    List.Forall₂ (fun input layout ↦ ∃ (q : Nat) (other : Node), graph.nodes[q]? = some other ∧
      other.id = input ∧ q < p ∧ other.output = layout) node.inputs operands := by
  refine (mapM_eq_ok_iff.1 h.operands_eq).imp fun input layout hlayout ↦ ?_
  split at hlayout
  · rename_i hfound
    cases hlayout
    obtain ⟨q, other, hq, hid, rfl⟩ := layoutIn?_eq_some hfound
    obtain ⟨hlt, _⟩ := List.getElem?_eq_some_iff.1 hq
    rw [List.length_take, Nat.lt_min] at hlt
    exact ⟨q, other, by rw [← hq, List.getElem?_take_of_lt hlt.1], hid, hlt.1, rfl⟩
  · cases hlayout

private theorem filterMap_of_forall₂ {α β : Type} {f : α → Option β} {xs : List α} {ys : List β}
    (h : List.Forall₂ (fun x y ↦ f x = some y) xs ys) : xs.filterMap f = ys := by
  induction h with
  | nil => rfl
  | cons hx _ ih => rw [List.filterMap_cons_some hx, ih]

/-- A node fits behind the nodes in front of it; the layouts of its operands are the declared
ones. -/
theorem fits (h : graph.nodes[p]? = some node) :
    node.Fits (graph.nodes.take p) (graph.inputLayouts node) := by
  obtain ⟨operands, hfits⟩ := Node.fits_of_check (check_at h).1
  have hlayouts : graph.inputLayouts node = operands := by
    refine filterMap_of_forall₂ ((forall₂_operands hfits).imp ?_)
    rintro input layout ⟨q, other, hq, rfl, _, rfl⟩
    rw [node?_id hq, Option.map_some]
  exact hlayouts ▸ hfits

/-- The producers of the operands, one by one. -/
theorem forall₂_producers (h : graph.nodes[p]? = some node) :
    List.Forall₂ (fun input q ↦ graph.position? input = some q) node.inputs
      (graph.producers node) := by
  have hops := forall₂_operands (fits h)
  have hsome : ∀ {inputs : List NodeId} {layouts : List Layout},
      List.Forall₂ (fun input layout ↦ ∃ q other, graph.nodes[q]? = some other ∧
        other.id = input ∧ q < p ∧ other.output = layout) inputs layouts →
      List.Forall₂ (fun input q ↦ graph.position? input = some q) inputs
        (inputs.filterMap graph.position?) := by
    intro inputs layouts hops
    induction hops with
    | nil => exact .nil
    | cons hx _ ih =>
      obtain ⟨q, other, hq, rfl, _, _⟩ := hx
      rw [List.filterMap_cons_some (position?_id hq)]
      exact .cons (position?_id hq) ih
  exact hsome hops

theorem length_producers (h : graph.nodes[p]? = some node) :
    (graph.producers node).length = node.op.arity := by
  rw [← (forall₂_producers h).length_eq, (fits h).length_inputs]

theorem mem_producers_iff : q ∈ graph.producers node ↔
    ∃ other, graph.nodes[q]? = some other ∧ other.id ∈ node.inputs := by
  rw [producers, List.mem_filterMap]
  constructor
  · rintro ⟨input, hmem, hq⟩
    obtain ⟨other, hother, rfl⟩ := position?_eq_some_iff.1 hq
    exact ⟨other, hother, hmem⟩
  · rintro ⟨other, hq, hmem⟩
    exact ⟨other.id, hmem, position?_id hq⟩

/-- The layouts of the operands are those that their producers declare. -/
theorem inputLayouts_eq (h : graph.nodes[p]? = some node) :
    List.Forall₂ (fun q layout ↦ ∃ other, graph.nodes[q]? = some other ∧ other.output = layout)
      (graph.producers node) (graph.inputLayouts node) := by
  have hops := forall₂_operands (fits h)
  have hprod := forall₂_producers h
  rw [List.forall₂_iff_get] at hops hprod ⊢
  refine ⟨hprod.1 ▸ hops.1, fun i h₁ h₂ ↦ ?_⟩
  obtain ⟨q, other, hq, hid, _, hlayout⟩ := hops.2 i (hprod.1 ▸ h₁) h₂
  have hi := hprod.2 i (hprod.1 ▸ h₁) h₁
  rw [← hid, position?_id hq, Option.some.injEq] at hi
  exact ⟨other, hi ▸ hq, hlayout⟩

theorem length_inputLayouts (h : graph.nodes[p]? = some node) :
    (graph.inputLayouts node).length = node.op.arity := by
  have hfits := fits h
  rw [← hfits.length_inputs, (mapM_eq_ok_iff.1 hfits.operands_eq).length_eq]

/-! ## Edges -/

/-- The result of the place `p` is an operand of the place `q`. -/
def Edge (graph : Graph) (p q : Nat) : Prop := p ∈ graph.inputPositions q

/-- A chain of edges leads from `p` to `q`. -/
def Ancestor (graph : Graph) : Nat → Nat → Prop := Relation.TransGen graph.Edge

theorem inputPositions_eq (h : graph.nodes[p]? = some node) :
    graph.inputPositions p = graph.producers node := by
  rw [inputPositions, h]

theorem edge_iff (h : graph.nodes[p]? = some node) :
    graph.Edge q p ↔ q ∈ graph.producers node := by
  rw [Edge, inputPositions_eq h]

theorem Edge.exists_node (h : graph.Edge p q) :
    ∃ node, graph.nodes[q]? = some node ∧ p ∈ graph.producers node := by
  unfold Edge inputPositions at h
  split at h
  · exact ⟨_, ‹_›, h⟩
  · cases h

/-- Edges lead to later places. -/
theorem Edge.lt (h : graph.Edge p q) : p < q := by
  obtain ⟨node, hq, hmem⟩ := h.exists_node
  obtain ⟨other, hp, hinput⟩ := mem_producers_iff.1 hmem
  obtain ⟨i, hi, hid⟩ := List.getElem_of_mem hinput
  have hops := List.forall₂_iff_get.1 (forall₂_operands (fits hq))
  obtain ⟨r, third, hr, hthird, hlt, _⟩ := hops.2 i hi (hops.1 ▸ hi)
  rw [List.get_eq_getElem] at hthird
  exact id_injective hp hr (hid.symm.trans hthird.symm) ▸ hlt

theorem Edge.lt_size (h : graph.Edge p q) : q < graph.size := by
  obtain ⟨node, hq, _⟩ := h.exists_node
  exact Graph.lt_size hq

/-- Ancestors are earlier places. -/
theorem Ancestor.lt (h : graph.Ancestor p q) : p < q := by
  induction h with
  | single hedge => exact hedge.lt
  | tail _ hedge ih => exact Nat.lt_trans ih hedge.lt

end Graph

end TensorEngine
