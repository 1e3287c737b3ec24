import TensorEngine.Memory.Plan
import TensorEngine.Proofs.Graph.Reachability

/-!
# Groups of buffers

A chain of reshapes leads from every place back to the place whose elements it shares: the start
of its group.  The places that `Graph.aliasRoots` computes are these starts, all members of a group
have elements of one type, and the group that `AliasGroup.ofRoot` computes covers the life of
every member: it starts where the group starts, reaches every place that touches a member, and
reaches the end of the graph when a member is an output.
-/

namespace TensorEngine

open Relation

namespace Graph

variable {graph : Graph} {node other : Node} {p q r e : Nat}

/-! ## Chains of reshapes -/

/-- The place `p` shares the elements of the place `start`: a chain of reshapes leads back to
`start`, which holds no reshape. -/
inductive Shares (graph : Graph) : (p start : Nat) → Prop
  | start {p : Nat} {node : Node} (hnode : graph.nodes[p]? = some node)
      (hkind : node.kind ≠ .reshape) : Shares graph p p
  | reshape {p q start : Nat} {node : Node} (hnode : graph.nodes[p]? = some node)
      (hkind : node.kind = .reshape) (hedge : graph.Edge q p)
      (hshares : Shares graph q start) : Shares graph p start

theorem op_of_kind_reshape (h : node.kind = .reshape) : ∃ target, node.op = .reshape target := by
  unfold Node.kind at h
  cases hop : node.op <;> simp [hop, OpSpec.kind] at h ⊢

/-- A reshape has one operand. -/
theorem producers_of_reshape (hnode : graph.nodes[p]? = some node) (h : node.kind = .reshape) :
    ∃ q, graph.producers node = [q] ∧ graph.Edge q p := by
  obtain ⟨target, hop⟩ := op_of_kind_reshape h
  have hlen := length_producers hnode
  rw [hop] at hlen
  obtain ⟨q, hq⟩ := List.length_eq_one_iff.1 hlen
  exact ⟨q, hq, (edge_iff hnode).2 (hq ▸ List.mem_singleton_self q)⟩

theorem aliasSource?_eq_some_iff (hnode : graph.nodes[p]? = some node) :
    graph.aliasSource? node = some q ↔ node.kind = .reshape ∧ graph.Edge q p := by
  unfold aliasSource?
  rw [edge_iff hnode]
  by_cases hkind : node.kind = .reshape
  · obtain ⟨source, hsource, _⟩ := producers_of_reshape hnode hkind
    simp [hkind, hsource, eq_comm]
  · simp [hkind]

theorem aliasSource?_eq_none_iff (hnode : graph.nodes[p]? = some node) :
    graph.aliasSource? node = none ↔ node.kind ≠ .reshape := by
  unfold aliasSource?
  by_cases hkind : node.kind = .reshape
  · obtain ⟨source, hsource, _⟩ := producers_of_reshape hnode hkind
    simp [hkind, hsource]
  · simp [hkind]

/-! ## The starts that are computed -/

/-- The place where the group of a place started. -/
def rootOf (graph : Graph) (p : Nat) : Nat := graph.aliasRoots.getD p p

theorem length_aliasRoots : graph.aliasRoots.length = graph.size :=
  length_foldl_snoc graph.nodes

theorem getElem?_aliasRoots (h : p < graph.size) :
    graph.aliasRoots[p]? = some (graph.rootOf p) := by
  rw [rootOf, List.getD_eq_getElem?_getD,
    List.getElem?_eq_getElem (by rw [length_aliasRoots]; exact h), Option.getD_some]

private theorem aliasRoots_step (hnode : graph.nodes[p]? = some node) :
    graph.aliasRoots[p]? = some (match graph.aliasSource? node with
      | some source => (graph.aliasRoots.take p).getD source p
      | none => p) := by
  have hlen : (graph.aliasRoots.take p).length = p := by
    rw [List.length_take, length_aliasRoots, Nat.min_eq_left (Nat.le_of_lt (lt_size hnode))]
  have hstep : graph.aliasRoots[p]? = some (match graph.aliasSource? node with
      | some source => (graph.aliasRoots.take p).getD source (graph.aliasRoots.take p).length
      | none => (graph.aliasRoots.take p).length) :=
    getElem?_foldl_snoc hnode
  rwa [hlen] at hstep

/-- A place that holds no reshape starts a group. -/
theorem rootOf_of_start (hnode : graph.nodes[p]? = some node) (hkind : node.kind ≠ .reshape) :
    graph.rootOf p = p := by
  have hstep := aliasRoots_step hnode
  rw [(aliasSource?_eq_none_iff hnode).2 hkind] at hstep
  rw [rootOf, List.getD_eq_getElem?_getD, hstep, Option.getD_some]

/-- A reshape joins the group of its operand. -/
theorem rootOf_of_reshape (hnode : graph.nodes[p]? = some node) (hkind : node.kind = .reshape)
    (hedge : graph.Edge q p) : graph.rootOf p = graph.rootOf q := by
  have hstep := aliasRoots_step hnode
  rw [(aliasSource?_eq_some_iff hnode).2 ⟨hkind, hedge⟩] at hstep
  simp only [List.getD_eq_getElem?_getD, List.getElem?_take_of_lt hedge.lt,
    getElem?_aliasRoots (Nat.lt_trans hedge.lt hedge.lt_size), Option.getD_some] at hstep
  rw [rootOf, List.getD_eq_getElem?_getD, hstep, Option.getD_some]

/-- The computed starts are the ends of the chains. -/
theorem shares_rootOf (h : p < graph.size) : graph.Shares p (graph.rootOf p) := by
  induction p using Nat.strongRecOn with
  | ind p ih =>
    obtain ⟨node, hnode⟩ := exists_node h
    by_cases hkind : node.kind = .reshape
    · obtain ⟨q, _, hedge⟩ := producers_of_reshape hnode hkind
      rw [rootOf_of_reshape hnode hkind hedge]
      exact .reshape hnode hkind hedge (ih q hedge.lt (Nat.lt_trans hedge.lt h))
    · rw [rootOf_of_start hnode hkind]
      exact .start hnode hkind

theorem Shares.lt_size (h : graph.Shares p r) : p < graph.size := by
  cases h with
  | start hnode => exact Graph.lt_size hnode
  | reshape hnode => exact Graph.lt_size hnode

/-- A place shares the elements of exactly one start. -/
theorem Shares.eq_rootOf (h : graph.Shares p r) : r = graph.rootOf p := by
  induction h with
  | start hnode hkind => exact (rootOf_of_start hnode hkind).symm
  | reshape hnode hkind hedge _ ih => rw [ih, rootOf_of_reshape hnode hkind hedge]

theorem shares_iff : graph.Shares p r ↔ p < graph.size ∧ graph.rootOf p = r :=
  ⟨fun h ↦ ⟨h.lt_size, h.eq_rootOf.symm⟩, fun ⟨hp, hr⟩ ↦ hr ▸ shares_rootOf hp⟩

theorem Shares.le (h : graph.Shares p r) : r ≤ p := by
  induction h with
  | start => exact Nat.le_refl _
  | reshape _ _ hedge _ ih => exact Nat.le_trans ih (Nat.le_of_lt hedge.lt)

/-- The start of a group holds no reshape. -/
theorem Shares.root (h : graph.Shares p r) :
    ∃ node, graph.nodes[r]? = some node ∧ node.kind ≠ .reshape := by
  induction h with
  | start hnode hkind => exact ⟨_, hnode, hkind⟩
  | reshape _ _ _ _ ih => exact ih

theorem Shares.self (h : graph.Shares p r) : graph.Shares r r := by
  obtain ⟨node, hnode, hkind⟩ := h.root
  exact .start hnode hkind

theorem Shares.root_lt_size (h : graph.Shares p r) : r < graph.size := h.self.lt_size

/-! ## Element types along a chain -/

/-- A reshape keeps the element type of its operand. -/
theorem dtype_of_reshape (hnode : graph.nodes[p]? = some node) (hkind : node.kind = .reshape)
    (hedge : graph.Edge q p) (hother : graph.nodes[q]? = some other) :
    node.output.dtype = other.output.dtype := by
  obtain ⟨target, hop⟩ := op_of_kind_reshape hkind
  obtain ⟨source, hsource, _⟩ := producers_of_reshape hnode hkind
  have hq : q = source := by
    rw [edge_iff hnode, hsource] at hedge
    exact List.mem_singleton.1 hedge
  have hlayouts := inputLayouts_eq hnode
  rw [hsource] at hlayouts
  obtain ⟨layout, _, ⟨third, hthird, rfl⟩, hnil, hinputs⟩ :=
    List.forall₂_cons_left_iff.1 hlayouts
  rw [List.forall₂_nil_left_iff.1 hnil] at hinputs
  have hsame : third = other := by
    rw [← hq, hother, Option.some.injEq] at hthird
    exact hthird.symm
  rcases (fits hnode).derived with hparam | ⟨inferred, hinferred, hdtype, _⟩
  · rw [hkind] at hparam
    cases hparam
  · rw [hop, hinputs, OpSpec.outputLayout, bind_eq_ok_iff] at hinferred
    obtain ⟨explicit, _, hinferred⟩ := hinferred
    obtain ⟨dims, _, hinferred⟩ := bind_eq_ok_iff.1 hinferred
    have hkept : inferred.dtype = third.output.dtype := by
      split at hinferred
      · split at hinferred
        · cases hinferred
        · cases hinferred
          rfl
      · cases hinferred
        rfl
    rw [← hdtype, hkept, hsame]

/-- All members of a group have the element type of its start. -/
theorem Shares.dtype_eq (h : graph.Shares p r) (hnode : graph.nodes[p]? = some node)
    (hother : graph.nodes[r]? = some other) : node.output.dtype = other.output.dtype := by
  induction h generalizing node with
  | start =>
    rw [hnode, Option.some.injEq] at hother
    rw [hother]
  | reshape hthis hkind hedge _ ih =>
    rw [hthis, Option.some.injEq] at hnode
    subst hnode
    obtain ⟨source, hsource⟩ := exists_node (Nat.lt_trans hedge.lt hedge.lt_size)
    rw [dtype_of_reshape hthis hkind hedge hsource, ih hsource hother]

/-- No reshape changes the type of the elements that it shares. -/
theorem checkAliases_eq_ok (graph : Graph) : graph.checkAliases = .ok () := by
  rw [checkAliases, forM_eq_ok_iff]
  rintro ⟨node, root⟩ hmem
  obtain ⟨p, hp⟩ := List.mem_iff_getElem?.1 hmem
  rw [List.getElem?_zip_eq_some] at hp
  obtain ⟨hnode, hroot⟩ := hp
  rw [getElem?_aliasRoots (lt_size hnode), Option.some.injEq] at hroot
  have hshares := shares_rootOf (lt_size hnode)
  rw [hroot] at hshares
  obtain ⟨other, hother, _⟩ := hshares.root
  simp [List.getD_eq_getElem?_getD, hother, hshares.dtype_eq hnode hother]

/-! ## Accesses -/

/-- The place `e` touches the elements of the place `p`: it computes or reads them. -/
def Accesses (graph : Graph) (e p : Nat) : Prop := e = p ∨ graph.Edge p e

/-- The result of a place keeps a slot to itself: it is bound from outside, given with the graph
or asked for. -/
def Dedicated (graph : Graph) (p : Nat) : Prop :=
  ∃ node, graph.nodes[p]? = some node ∧
    (node.kind = .parameter ∨ node.kind = .constant ∨ node.id ∈ graph.outputs)

theorem Accesses.le (h : graph.Accesses e p) : p ≤ e := by
  rcases h with rfl | h
  · exact Nat.le_refl _
  · exact Nat.le_of_lt h.lt

theorem mem_consumers_iff : e ∈ graph.consumers p ↔ graph.Edge p e := by
  unfold consumers Edge
  simp only [List.mem_flatMap, List.mem_range, List.mem_filterMap, Option.ite_none_right_eq_some,
    Option.some.injEq]
  constructor
  · rintro ⟨reader, _, input, hmem, rfl, rfl⟩
    exact hmem
  · intro h
    exact ⟨e, Edge.lt_size h, p, h, rfl, rfl⟩

theorem mem_accessors_iff : e ∈ graph.accessors p ↔ graph.Accesses e p := by
  rw [accessors, List.mem_cons, mem_consumers_iff, Accesses]

end Graph

/-! ## Lives of groups -/

namespace AliasGroup

variable {graph : Graph} {node : Node} {group first : AliasGroup} {rest : List AliasGroup}
  {p r e : Nat}

private theorem le_foldl_max (places : List Nat) (first : Nat) :
    first ≤ places.foldl max first ∧ ∀ e ∈ places, e ≤ places.foldl max first := by
  induction places generalizing first with
  | nil => simp
  | cons place places ih =>
    obtain ⟨hfirst, hrest⟩ := ih (max first place)
    rw [List.foldl_cons]
    refine ⟨by omega, fun e he ↦ ?_⟩
    rcases List.mem_cons.1 he with rfl | he
    · omega
    · exact hrest e he

/-- A buffer lives until every place that touches it has run. -/
theorem le_finish_single (hnode : graph.nodes[p]? = some node) (h : graph.Accesses e p) :
    e ≤ (single graph p node).range.finish := by
  have hmax := le_foldl_max (graph.consumers p) p
  simp only [single, Graph.liveRange]
  split
  · rcases h with rfl | h
    · exact Nat.le_of_lt (Graph.lt_size hnode)
    · exact Nat.le_of_lt h.lt_size
  · rcases h with rfl | h
    · exact hmax.1
    · exact hmax.2 e (Graph.mem_consumers_iff.2 h)

/-- The buffer of an output lives until the end. -/
theorem finish_single_of_output (h : node.id ∈ graph.outputs) :
    (single graph p node).range.finish = graph.size := by
  simp [single, Graph.liveRange, Graph.isOutput, h]

theorem start_single : (single graph p node).range.start = p := by
  simp only [single, Graph.liveRange]
  split <;> rfl

theorem isDedicated_single : (single graph p node).usage.isDedicated = true ↔
    node.kind = .parameter ∨ node.kind = .constant ∨ node.id ∈ graph.outputs := by
  simp only [single, BufferUsage.isDedicated, BufferUsage.ofNode, Graph.isOutput, Bool.or_eq_true,
    decide_eq_true_eq, or_assoc]
  rw [or_congr_right or_comm]

/-! ### Joining members -/

theorem root_foldl_join : (rest.foldl join first).root = first.root := by
  induction rest generalizing first with
  | nil => rfl
  | cons member rest ih => rw [List.foldl_cons, ih, join]

theorem dtype_foldl_join : (rest.foldl join first).dtype = first.dtype := by
  induction rest generalizing first with
  | nil => rfl
  | cons member rest ih => rw [List.foldl_cons, ih, join]

theorem mem_accessors_foldl_join : e ∈ (rest.foldl join first).accessors ↔
    ∃ member ∈ first :: rest, e ∈ member.accessors := by
  induction rest generalizing first with
  | nil => simp
  | cons member rest ih =>
    rw [List.foldl_cons, ih]
    simp [join, or_assoc]

theorem start_foldl_join (h : ∀ member ∈ rest, first.range.start ≤ member.range.start) :
    (rest.foldl join first).range.start = first.range.start := by
  induction rest generalizing first with
  | nil => rfl
  | cons member rest ih =>
    have hmember := h member (by simp)
    have hstart : (first.join member).range.start = first.range.start := by
      simp only [join, LiveRange.union]
      omega
    rw [List.foldl_cons, ih fun other hother ↦ hstart ▸ h other (by simp [hother]), hstart]

theorem finish_le_foldl_join : ∀ member ∈ first :: rest,
    member.range.finish ≤ (rest.foldl join first).range.finish := by
  induction rest generalizing first with
  | nil => simp
  | cons member rest ih =>
    intro other hother
    rw [List.foldl_cons]
    have hjoin : (first.join member).range.finish ≤
        (rest.foldl join (first.join member)).range.finish := ih _ (List.mem_cons_self ..)
    have hunion : (first.join member).range.finish =
        max first.range.finish member.range.finish := rfl
    rcases List.mem_cons.1 hother with rfl | hother
    · omega
    · rcases List.mem_cons.1 hother with rfl | hother
      · omega
      · exact ih other (by simp [hother])

theorem isDedicated_merge {a b : BufferUsage} : (a.merge b).isDedicated = true ↔
    a.isDedicated = true ∨ b.isDedicated = true := by
  simp only [BufferUsage.isDedicated, BufferUsage.merge, Bool.or_eq_true]
  grind

theorem isDedicated_foldl_join : (rest.foldl join first).usage.isDedicated = true ↔
    ∃ member ∈ first :: rest, member.usage.isDedicated = true := by
  induction rest generalizing first with
  | nil => simp
  | cons member rest ih =>
    rw [List.foldl_cons, ih]
    simp [join, isDedicated_merge, or_assoc]

/-! ### The group of a start -/

/-- The buffers that share the elements of a start, in their order, each as a group. -/
def members (graph : Graph) (r : Nat) : List AliasGroup :=
  (graph.nodes.zip graph.aliasRoots).zipIdx.filterMap fun ((node, start), position) ↦
    if start = r then some (single graph position node) else none

theorem ofRoot_of_members (h : members graph r = first :: rest) :
    ofRoot graph r = rest.foldl join first := by
  unfold members at h
  simp only [ofRoot, h]

theorem mem_members_iff : group ∈ members graph r ↔
    ∃ p node, graph.nodes[p]? = some node ∧ graph.Shares p r ∧ group = single graph p node := by
  rw [members, List.mem_filterMap]
  constructor
  · rintro ⟨⟨⟨node, start⟩, p⟩, hmem, hgroup⟩
    rw [List.mk_mem_zipIdx_iff_getElem?, List.getElem?_zip_eq_some] at hmem
    obtain ⟨hnode, hroot⟩ := hmem
    rw [Graph.getElem?_aliasRoots (Graph.lt_size hnode), Option.some.injEq] at hroot
    simp only [Option.ite_none_right_eq_some, Option.some.injEq] at hgroup
    exact ⟨p, node, hnode, Graph.shares_iff.2 ⟨Graph.lt_size hnode, hroot.trans hgroup.1⟩,
      hgroup.2.symm⟩
  · rintro ⟨p, node, hnode, hshares, rfl⟩
    refine ⟨((node, r), p), ?_, by simp⟩
    rw [List.mk_mem_zipIdx_iff_getElem?, List.getElem?_zip_eq_some,
      Graph.getElem?_aliasRoots hshares.lt_size, hshares.eq_rootOf]
    exact ⟨hnode, rfl⟩

private theorem pairwise_zipIdx {α : Type} (items : List α) :
    items.zipIdx.Pairwise fun a b ↦ a.2 < b.2 := by
  have h : (items.zipIdx.map Prod.snd).Pairwise (· < ·) := by
    rw [List.zipIdx_map_snd]
    exact List.pairwise_lt_range'
  exact List.pairwise_map.1 h

private theorem pairwise_members (graph : Graph) (r : Nat) :
    (members graph r).Pairwise fun a b ↦ a.root < b.root := by
  rw [members, List.pairwise_filterMap]
  refine (pairwise_zipIdx _).imp fun {a b} hlt x hx y hy ↦ ?_
  simp only [Option.ite_none_right_eq_some, Option.some.injEq] at hx hy
  rw [← hx.2, ← hy.2]
  exact hlt

/-- The start comes first among the members of its group. -/
theorem members_eq (hnode : graph.nodes[r]? = some node) (hself : graph.Shares r r) :
    ∃ rest, members graph r = single graph r node :: rest := by
  have hfirst : single graph r node ∈ members graph r :=
    mem_members_iff.2 ⟨r, node, hnode, hself, rfl⟩
  have hpair := pairwise_members graph r
  cases hmembers : members graph r with
  | nil =>
    rw [hmembers] at hfirst
    cases hfirst
  | cons first rest =>
    rw [hmembers] at hfirst hpair
    rcases List.mem_cons.1 hfirst with hfirst | hlater
    · exact ⟨rest, hfirst ▸ rfl⟩
    · obtain ⟨p, other, _, hshares, hother⟩ := mem_members_iff.1
        (hmembers ▸ List.mem_cons_self : first ∈ members graph r)
      have hlt : first.root < r := (List.pairwise_cons.1 hpair).1 _ hlater
      rw [hother] at hlt
      exact absurd hshares.le (Nat.not_le.2 hlt)

/-- A group covers the lives of all buffers that share the elements of its start. -/
structure Covers (graph : Graph) (r : Nat) (group : AliasGroup) : Prop where
  root_eq : group.root = r
  dtype_eq : ∀ {node}, graph.nodes[r]? = some node → group.dtype = node.output.dtype
  /-- It comes to life with the start. -/
  start_eq : group.range.start = r
  /-- It lives until every place that touches a member has run. -/
  le_finish : ∀ {p e}, graph.Shares p r → graph.Accesses e p → e ≤ group.range.finish
  /-- It lives until the end when a member is an output. -/
  size_le_finish : ∀ {p node}, graph.Shares p r → graph.nodes[p]? = some node →
    node.id ∈ graph.outputs → graph.size ≤ group.range.finish
  /-- It knows the places that touch a member. -/
  mem_accessors : ∀ {e}, e ∈ group.accessors ↔ ∃ p, graph.Shares p r ∧ graph.Accesses e p
  /-- It is kept apart when a member is a parameter, a constant or an output. -/
  isDedicated : group.usage.isDedicated = true ↔ ∃ p, graph.Shares p r ∧ graph.Dedicated p

theorem covers_ofRoot (h : graph.Shares r r) : Covers graph r (ofRoot graph r) := by
  obtain ⟨node, hnode, _⟩ := h.root
  obtain ⟨rest, hmembers⟩ := members_eq hnode h
  have heq := ofRoot_of_members hmembers
  have hmem : ∀ group, group ∈ single graph r node :: rest ↔ ∃ p node,
      graph.nodes[p]? = some node ∧ graph.Shares p r ∧ group = single graph p node := by
    intro group
    rw [← hmembers, mem_members_iff]
  have hmember : ∀ {p other}, graph.Shares p r → graph.nodes[p]? = some other →
      single graph p other ∈ single graph r node :: rest :=
    fun hp hother ↦ (hmem _).2 ⟨_, _, hother, hp, rfl⟩
  refine ⟨?_, ?_, ?_, ?_, ?_, ?_, ?_⟩
  · rw [heq, root_foldl_join, single]
  · intro other hother
    rw [hnode, Option.some.injEq] at hother
    rw [heq, dtype_foldl_join, ← hother, single]
  · rw [heq, start_foldl_join, start_single]
    intro member hlater
    obtain ⟨p, other, _, hp, rfl⟩ := (hmem member).1 (by simp [hlater])
    rw [start_single, start_single]
    exact hp.le
  · intro p e hp haccess
    obtain ⟨other, hother⟩ := Graph.exists_node hp.lt_size
    rw [heq]
    exact Nat.le_trans (le_finish_single hother haccess)
      (finish_le_foldl_join _ (hmember hp hother))
  · intro p other hp hother hout
    rw [heq, ← finish_single_of_output (p := p) hout]
    exact finish_le_foldl_join _ (hmember hp hother)
  · intro e
    rw [heq, mem_accessors_foldl_join]
    constructor
    · rintro ⟨member, hlater, he⟩
      obtain ⟨p, other, _, hp, rfl⟩ := (hmem member).1 hlater
      exact ⟨p, hp, Graph.mem_accessors_iff.1 he⟩
    · rintro ⟨p, hp, haccess⟩
      obtain ⟨other, hother⟩ := Graph.exists_node hp.lt_size
      exact ⟨_, hmember hp hother, Graph.mem_accessors_iff.2 haccess⟩
  · rw [heq, isDedicated_foldl_join]
    constructor
    · rintro ⟨member, hlater, he⟩
      obtain ⟨p, other, hother, hp, rfl⟩ := (hmem member).1 hlater
      exact ⟨p, hp, other, hother, isDedicated_single.1 he⟩
    · rintro ⟨p, hp, other, hother, hkept⟩
      exact ⟨_, hmember hp hother, isDedicated_single.2 hkept⟩

/-! ### All groups -/

theorem mem_ofGraph_iff : group ∈ ofGraph graph ↔
    ∃ r, graph.Shares r r ∧ group = ofRoot graph r := by
  simp only [ofGraph, List.mem_filterMap]
  constructor
  · rintro ⟨⟨root, p⟩, hmem, hgroup⟩
    rw [List.mk_mem_zipIdx_iff_getElem?] at hmem
    have hp : p < graph.size := by
      rw [← Graph.length_aliasRoots]
      exact (List.getElem?_eq_some_iff.1 hmem).1
    rw [Graph.getElem?_aliasRoots hp, Option.some.injEq] at hmem
    simp only [Option.ite_none_right_eq_some, Option.some.injEq] at hgroup
    obtain ⟨rfl, rfl⟩ := hgroup
    exact ⟨root, Graph.shares_iff.2 ⟨hp, hmem⟩, rfl⟩
  · rintro ⟨r, hself, rfl⟩
    refine ⟨(r, r), ?_, by simp⟩
    rw [List.mk_mem_zipIdx_iff_getElem?, Graph.getElem?_aliasRoots hself.lt_size,
      ← hself.eq_rootOf]

/-- The groups come in the order in which they start. -/
theorem pairwise_ofGraph (graph : Graph) :
    (ofGraph graph).Pairwise fun a b ↦ a.root < b.root := by
  rw [ofGraph, List.pairwise_filterMap]
  refine (pairwise_zipIdx _).imp_of_mem fun {a b} ha hb hlt x hx y hy ↦ ?_
  simp only [Option.ite_none_right_eq_some, Option.some.injEq] at hx hy
  have hroot : ∀ {c : Nat × Nat} {group : AliasGroup}, c ∈ graph.aliasRoots.zipIdx → c.1 = c.2 →
      ofRoot graph c.1 = group → group.root = c.2 := by
    rintro ⟨root, p⟩ group hmem hself rfl
    simp only at hself
    subst hself
    have hp : root < graph.size := by
      rw [List.mk_mem_zipIdx_iff_getElem?] at hmem
      rw [← Graph.length_aliasRoots]
      exact (List.getElem?_eq_some_iff.1 hmem).1
    rw [List.mk_mem_zipIdx_iff_getElem?, Graph.getElem?_aliasRoots hp, Option.some.injEq] at hmem
    exact (covers_ofRoot (Graph.shares_iff.2 ⟨hp, hmem⟩)).root_eq
  rw [hroot ha hx.1 hx.2, hroot hb hy.1 hy.2]
  exact hlt

end AliasGroup

end TensorEngine
