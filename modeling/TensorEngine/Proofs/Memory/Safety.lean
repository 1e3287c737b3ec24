import TensorEngine.Program
import TensorEngine.Proofs.Memory.Alias
import TensorEngine.Proofs.Memory.Assignment

/-!
# Memory plans are safe

Every graph has a plan for every number of streams, and the plan is safe: no element that is still
needed is overwritten by a place that got the same slot.  On one stream that is because groups of
buffers in one slot are alive one after the other; on several streams every place that touches the
earlier group is an ancestor of the place that starts the later one.
-/

namespace TensorEngine.MemoryPlan

open SlotUse

variable {graph : Graph} {plan : MemoryPlan} {streams : Nat} {node : Node} {b c : BufferSpec}
  {p q r e : Nat}

/-- No place of a graph can destroy what another one still needs. -/
structure Safe (plan : MemoryPlan) (graph : Graph) (streams : Nat) : Prop where
  length_buffers : plan.buffers.length = graph.size
  buffer_eq : ∀ {p : Nat} {node : Node} {b : BufferSpec}, graph.nodes[p]? = some node →
    plan.buffers[p]? = some b → b.node = node.id ∧ b.position = p ∧ b.dtype = node.output.dtype
  /-- Buffers are in one group exactly when they share the elements of one start. -/
  group_iff : ∀ {p r : Nat} {b : BufferSpec}, plan.buffers[p]? = some b →
    (b.aliasGroup = r ↔ graph.Shares p r)
  /-- A place shares the slot of the start of its group. -/
  slot_eq : ∀ {p r : Nat} {b c : BufferSpec}, graph.Shares p r → plan.buffers[p]? = some b →
    plan.buffers[r]? = some c → b.slot = c.slot
  slot_dtype : ∀ {b : BufferSpec}, b ∈ plan.buffers →
    ∃ slot, plan.slots[b.slot]? = some slot ∧ slot.id = b.slot ∧ slot.dtype = b.dtype
  /-- A group is alive at its start, and at every place that computes or reads a member. -/
  alive : ∀ {p q r e : Nat} {b : BufferSpec}, graph.Shares p r → graph.Shares q r →
    plan.buffers[p]? = some b → graph.Accesses e q →
      b.liveRange.start = r ∧ r ≤ e ∧ e ≤ b.liveRange.finish
  alive_to_end : ∀ {p q r : Nat} {node : Node} {b : BufferSpec}, graph.Shares p r →
    graph.Shares q r → plan.buffers[p]? = some b → graph.nodes[q]? = some node →
      node.id ∈ graph.outputs → graph.size ≤ b.liveRange.finish
  /-- Buffers of different groups in one slot are not alive together. -/
  disjoint : ∀ {b c : BufferSpec}, b ∈ plan.buffers → c ∈ plan.buffers → b.slot = c.slot →
    b.aliasGroup ≠ c.aliasGroup → b.liveRange.overlaps c.liveRange = false
  conflicts_eq : plan.conflicts = []
  /-- A group with a parameter, a constant or an output has its slot to itself. -/
  alone : ∀ {p r : Nat} {b c : BufferSpec}, graph.Shares p r → graph.Dedicated p →
    plan.buffers[p]? = some b → c ∈ plan.buffers → b.slot = c.slot → c.aliasGroup = r
  /-- The result of an executable node goes to none of the slots that it reads. -/
  slotOf_notMem : ∀ {p : Nat} {node : Node}, graph.nodes[p]? = some node →
    node.kind.isExecutable = true → ∃ inputs output, node.inputs.mapM plan.slotOf = .ok inputs ∧
      plan.slotOf node.id = .ok output ∧ output ∉ inputs
  /-- On several streams, all places that touch the earlier of two groups in one slot are
  ancestors of the start of the later one. -/
  ancestor : 1 < streams → ∀ {p q r r' e : Nat} {b c : BufferSpec}, graph.Shares p r →
    graph.Shares q r' → plan.buffers[p]? = some b → plan.buffers[q]? = some c →
      b.slot = c.slot → r < r' →
        ∀ {m : Nat}, graph.Shares m r → graph.Accesses e m → graph.Ancestor e r'

/-- A plan whose buffers carry the names of the nodes finds them by these names. -/
theorem buffer?_id (hlength : plan.buffers.length = graph.size)
    (hnames : ∀ {q : Nat} {other : Node} {c : BufferSpec}, graph.nodes[q]? = some other →
      plan.buffers[q]? = some c → c.node = other.id)
    (hnode : graph.nodes[p]? = some node) (hb : plan.buffers[p]? = some b) :
    plan.buffer? node.id = some b := by
  obtain ⟨hlt, hget⟩ := List.getElem?_eq_some_iff.1 hb
  rw [buffer?, List.find?_eq_some_iff_getElem]
  refine ⟨by simp [hnames hnode hb], p, hlt, hget, fun q hq ↦ ?_⟩
  have hq' := Nat.lt_trans hq hlt
  obtain ⟨other, hother⟩ := Graph.exists_node (hlength ▸ hq')
  rw [hnames hother (List.getElem?_eq_getElem hq')]
  have hne : other.id ≠ node.id := fun hsame ↦
    Nat.ne_of_lt hq (Graph.id_injective hother hnode hsame)
  simpa using hne

/-! ## The plan that is made -/

/-- What a plan is made of: the group that started at `r` is in the slot `slot r`. -/
structure MadeOf (plan : MemoryPlan) (graph : Graph) (streams : Nat) (slot : Nat → Nat) :
    Prop where
  length_buffers : plan.buffers.length = graph.size
  buffer : ∀ {p : Nat} {node : Node}, graph.nodes[p]? = some node →
    ∃ b, plan.buffers[p]? = some b ∧ b.node = node.id ∧ b.position = p ∧
      b.dtype = node.output.dtype ∧ b.aliasGroup = graph.rootOf p ∧
      b.liveRange = (AliasGroup.ofRoot graph (graph.rootOf p)).range ∧
      b.slot = slot (graph.rootOf p)
  slots : ∀ {r}, graph.Shares r r → ∃ s, plan.slots[slot r]? = some s ∧ s.id = slot r ∧
    s.dtype = (AliasGroup.ofRoot graph r).dtype
  handsOver : ∀ {r r'}, graph.Shares r r → graph.Shares r' r' → r < r' → slot r = slot r' →
    HandsOver (if 1 < streams then some (.ofGraph graph) else none)
      (AliasGroup.ofRoot graph r) (AliasGroup.ofRoot graph r')

private theorem lookup_of_mem {α : Type} {entries : List (Nat × α)} {key : Nat} {value : α}
    (hkeys : entries.Pairwise fun a b ↦ a.1 ≠ b.1) (hmem : (key, value) ∈ entries) :
    entries.lookup key = some value := by
  obtain ⟨pre, post, rfl⟩ := List.append_of_mem hmem
  rw [List.lookup_eq_some_iff]
  refine ⟨pre, post, rfl, fun entry hentry ↦ ?_⟩
  have hne := (List.pairwise_append.1 hkeys).2.2 entry hentry (key, value) (by simp)
  simpa using hne.symm

private theorem find?_root (h : graph.Shares r r) :
    (AliasGroup.ofGraph graph).find? (·.root = r) = some (AliasGroup.ofRoot graph r) := by
  have hroot := (AliasGroup.covers_ofRoot h).root_eq
  cases hfound : (AliasGroup.ofGraph graph).find? (·.root = r) with
  | none =>
    have hnone := List.find?_eq_none.1 hfound _ (AliasGroup.mem_ofGraph_iff.2 ⟨r, h, rfl⟩)
    simp [hroot] at hnone
  | some group =>
    obtain ⟨r', hself, rfl⟩ := AliasGroup.mem_ofGraph_iff.1 (List.mem_of_find?_eq_some hfound)
    have hr := List.find?_some hfound
    rw [decide_eq_true_eq, (AliasGroup.covers_ofRoot hself).root_eq] at hr
    rw [hr]

/-- Of two groups in one slot, the one that starts first hands the slot over. -/
private theorem handsOver_of_lt {reach : Option Reachability} {placed : List (AliasGroup × Nat)}
    {first second : AliasGroup} {s : Nat}
    (hroots : placed.Pairwise fun a b ↦ a.1.root < b.1.root)
    (hover : placed.Pairwise fun a b ↦ a.2 = b.2 → HandsOver reach a.1 b.1)
    (hfirst : (first, s) ∈ placed) (hsecond : (second, s) ∈ placed)
    (hlt : first.root < second.root) : HandsOver reach first second := by
  refine List.Pairwise.forall_of_forall_of_flip (l := placed)
    (R := fun a b ↦ a.1.root < b.1.root → a.2 = b.2 → HandsOver reach a.1 b.1) ?_ ?_ ?_
    hfirst hsecond hlt rfl
  · exact fun _ _ hself ↦ absurd hself (Nat.lt_irrefl _)
  · exact hover.imp fun {a b} h (_ : a.1.root < b.1.root) ↦ h
  · exact hroots.imp fun h hback ↦ absurd h (Nat.lt_asymm hback)

/-- Every graph has a plan. -/
theorem exists_madeOf (graph : Graph) (streams : Nat) :
    ∃ plan slot, MemoryPlan.ofGraph graph streams = .ok plan ∧
      plan.MadeOf graph streams slot := by
  obtain ⟨placed, hgroups, hslots, hassigned⟩ := exists_assigned
    (if 1 < streams then some (.ofGraph graph) else none) (AliasGroup.ofGraph graph)
  have hroots := AliasGroup.pairwise_ofGraph graph
  rw [← hgroups, List.pairwise_map] at hroots
  have hkeys : (placed.map fun pair ↦ (pair.1.root, pair.2)).Pairwise fun a b ↦ a.1 ≠ b.1 :=
    List.pairwise_map.2 (hroots.imp fun h ↦ Nat.ne_of_lt h)
  have hplaced : ∀ {r}, graph.Shares r r → ∃ s, (AliasGroup.ofRoot graph r, s) ∈ placed ∧
      (placed.map fun pair ↦ (pair.1.root, pair.2)).lookup r = some s := by
    intro r hself
    have hmem : AliasGroup.ofRoot graph r ∈ placed.map Prod.fst :=
      hgroups ▸ AliasGroup.mem_ofGraph_iff.2 ⟨r, hself, rfl⟩
    obtain ⟨⟨group, s⟩, hmem, hgroup⟩ := List.mem_map.1 hmem
    simp only at hgroup
    subst hgroup
    refine ⟨s, hmem, lookup_of_mem hkeys (List.mem_map.2 ⟨_, hmem, ?_⟩)⟩
    rw [(AliasGroup.covers_ofRoot hself).root_eq]
  have hplan : MemoryPlan.ofGraph graph streams = .ok {
      buffers := (graph.nodes.zip graph.aliasRoots).zipIdx.map fun entry ↦
        buffer graph (AliasGroup.ofGraph graph)
          (placed.map fun pair ↦ (pair.1.root, pair.2)) entry.1.1 entry.2 entry.1.2
      slots := (assignAll (if 1 < streams then some (.ofGraph graph) else none)
        (AliasGroup.ofGraph graph)).1.map SlotUse.slot } := by
    rw [MemoryPlan.ofGraph, Graph.checkAliases_eq_ok, ok_bind, ← hslots]
    rfl
  refine ⟨_, fun r ↦ ((placed.map fun pair ↦ (pair.1.root, pair.2)).lookup r).getD 0, hplan,
    ?_, ?_, ?_, ?_⟩
  · rw [List.length_map, List.length_zipIdx, List.length_zip, Graph.length_aliasRoots]
    exact Nat.min_self _
  · intro p node hnode
    have hp := Graph.lt_size hnode
    refine ⟨buffer graph (AliasGroup.ofGraph graph)
      (placed.map fun pair ↦ (pair.1.root, pair.2)) node p (graph.rootOf p), ?_, rfl, rfl, rfl, rfl,
      ?_, rfl⟩
    · have hzip : (graph.nodes.zip graph.aliasRoots)[p]? = some (node, graph.rootOf p) :=
        List.getElem?_zip_eq_some.2 ⟨hnode, Graph.getElem?_aliasRoots hp⟩
      rw [List.getElem?_map, List.getElem?_zipIdx, hzip]
      simp only [Option.map_some, Nat.zero_add]
    · simp only [buffer]
      rw [find?_root (Graph.shares_rootOf hp).self, Option.map_some, Option.getD_some]
  · intro r hself
    obtain ⟨s, hmem, hlookup⟩ := hplaced hself
    obtain ⟨use, huse, hrem⟩ := hassigned.remembers hmem
    rw [hlookup, Option.getD_some]
    exact ⟨use.slot, by rw [List.getElem?_map, huse, Option.map_some], hrem.id_eq, hrem.dtype_eq⟩
  · intro r r' hr hr' hlt hsame
    obtain ⟨s, hmem, hlookup⟩ := hplaced hr
    obtain ⟨s', hmem', hlookup'⟩ := hplaced hr'
    rw [hlookup, hlookup', Option.getD_some, Option.getD_some] at hsame
    subst hsame
    refine handsOver_of_lt hroots hassigned.handsOver hmem hmem' ?_
    rw [(AliasGroup.covers_ofRoot hr).root_eq, (AliasGroup.covers_ofRoot hr').root_eq]
    exact hlt

/-! ## Safety of the plan -/

namespace MadeOf

variable {slot : Nat → Nat}

/-- The buffer of a place, whose group is covered. -/
private theorem of_buffer (h : plan.MadeOf graph streams slot) (hb : plan.buffers[p]? = some b) :
    graph.Shares p b.aliasGroup ∧ b.slot = slot b.aliasGroup ∧
      b.liveRange = (AliasGroup.ofRoot graph b.aliasGroup).range := by
  have hp : p < graph.size := h.length_buffers ▸ (List.getElem?_eq_some_iff.1 hb).1
  obtain ⟨node, hnode⟩ := Graph.exists_node hp
  obtain ⟨b', hb', _, _, _, hgroup, hlive, hslot⟩ := h.buffer hnode
  rw [hb, Option.some.injEq] at hb'
  subst hb'
  rw [hgroup]
  exact ⟨Graph.shares_rootOf hp, hslot, hlive⟩

/-- The buffer of a member of a group. -/
private theorem of_shares (h : plan.MadeOf graph streams slot) (hp : graph.Shares p r)
    (hb : plan.buffers[p]? = some b) : b.aliasGroup = r ∧ b.slot = slot r ∧
      b.liveRange = (AliasGroup.ofRoot graph r).range := by
  obtain ⟨hshares, hslot, hlive⟩ := h.of_buffer hb
  have hgroup : b.aliasGroup = r := hshares.eq_rootOf.trans hp.eq_rootOf.symm
  rw [hgroup] at hslot hlive
  exact ⟨hgroup, hslot, hlive⟩

private theorem exists_buffer (h : plan.MadeOf graph streams slot) (hb : b ∈ plan.buffers) :
    ∃ p, plan.buffers[p]? = some b ∧ graph.Shares p b.aliasGroup := by
  obtain ⟨p, hp⟩ := List.mem_iff_getElem?.1 hb
  exact ⟨p, hp, (h.of_buffer hp).1⟩

theorem slotOf_id (h : plan.MadeOf graph streams slot) (hnode : graph.nodes[p]? = some node) :
    plan.slotOf node.id = .ok (slot (graph.rootOf p)) := by
  obtain ⟨b, hb, _, _, _, _, _, hslot⟩ := h.buffer hnode
  have hnames : ∀ {q : Nat} {other : Node} {c : BufferSpec}, graph.nodes[q]? = some other →
      plan.buffers[q]? = some c → c.node = other.id := by
    intro q other c hother hc
    obtain ⟨c', hc', hcid, _⟩ := h.buffer hother
    rw [hc, Option.some.injEq] at hc'
    exact hc' ▸ hcid
  rw [slotOf, slot?, buffer?_id h.length_buffers hnames hnode hb, Option.map_some, hslot]

/-- Groups in one slot are not alive together. -/
private theorem lt_of_slot_eq {r r' : Nat} (h : plan.MadeOf graph streams slot)
    (hr : graph.Shares r r) (hr' : graph.Shares r' r') (hslot : slot r = slot r') (hlt : r < r') :
    (AliasGroup.ofRoot graph r).range.finish < r' ∧
      (∀ p, graph.Shares p r → ¬ graph.Dedicated p) ∧
      (∀ p, graph.Shares p r' → ¬ graph.Dedicated p) := by
  have hover := h.handsOver hr hr' hlt hslot
  have hcov := AliasGroup.covers_ofRoot hr
  have hcov' := AliasGroup.covers_ofRoot hr'
  refine ⟨hcov'.start_eq ▸ hover.finish_lt, fun p hp hkept ↦ ?_, fun p hp hkept ↦ ?_⟩
  · have hfalse := hover.shared.1
    rw [hcov.isDedicated.2 ⟨p, hp, hkept⟩] at hfalse
    cases hfalse
  · have hfalse := hover.shared.2
    rw [hcov'.isDedicated.2 ⟨p, hp, hkept⟩] at hfalse
    cases hfalse

private theorem disjoint (h : plan.MadeOf graph streams slot) (hb : b ∈ plan.buffers)
    (hc : c ∈ plan.buffers) (hslot : b.slot = c.slot) (hgroup : b.aliasGroup ≠ c.aliasGroup) :
    b.liveRange.overlaps c.liveRange = false := by
  obtain ⟨p, hp, hshares⟩ := h.exists_buffer hb
  obtain ⟨q, hq, hshares'⟩ := h.exists_buffer hc
  obtain ⟨_, hbslot, hblive⟩ := h.of_buffer hp
  obtain ⟨_, hcslot, hclive⟩ := h.of_buffer hq
  rw [hbslot, hcslot] at hslot
  have hstart := (AliasGroup.covers_ofRoot hshares.self).start_eq
  have hstart' := (AliasGroup.covers_ofRoot hshares'.self).start_eq
  rw [hblive, hclive, LiveRange.overlaps, hstart, hstart']
  rcases Nat.lt_or_gt_of_ne hgroup with hlt | hlt
  · have hfinish := (h.lt_of_slot_eq hshares.self hshares'.self hslot hlt).1
    simp only [Bool.and_eq_false_iff, decide_eq_false_iff_not]
    omega
  · have hfinish := (h.lt_of_slot_eq hshares'.self hshares.self hslot.symm hlt).1
    simp only [Bool.and_eq_false_iff, decide_eq_false_iff_not]
    omega

private theorem conflictsAmong_eq_nil {buffers : List BufferSpec}
    (h : ∀ b ∈ buffers, ∀ c ∈ buffers, ¬ Conflict b c) : conflictsAmong buffers = [] := by
  induction buffers with
  | nil => rfl
  | cons b buffers ih =>
    have hnone : buffers.filter (fun c ↦ Conflict b c) = [] := by
      rw [List.filter_eq_nil_iff]
      intro c hc
      simpa using h b (by simp) c (by simp [hc])
    rw [conflictsAmong, hnone, List.map_nil, List.nil_append]
    exact ih fun c hc d hd ↦ h c (by simp [hc]) d (by simp [hd])

/-- A result is never written over an operand: the group of an operand is alive where it is
read. -/
private theorem slot_ne (h : plan.MadeOf graph streams slot) (hnode : graph.nodes[p]? = some node)
    (hkind : node.kind.isExecutable = true) (hedge : graph.Edge q p) :
    slot (graph.rootOf q) ≠ slot (graph.rootOf p) := by
  intro hslot
  have hreshape : node.kind ≠ .reshape := by
    intro hreshape
    rw [hreshape] at hkind
    cases hkind
  have hq : q < graph.size := Nat.lt_trans hedge.lt hedge.lt_size
  have hself : graph.Shares p p := .start hnode hreshape
  rw [Graph.rootOf_of_start hnode hreshape] at hslot
  have hlt : graph.rootOf q < p := Nat.lt_of_le_of_lt (Graph.shares_rootOf hq).le hedge.lt
  have hfinish := (h.lt_of_slot_eq (Graph.shares_rootOf hq).self hself hslot hlt).1
  have halive := (AliasGroup.covers_ofRoot (Graph.shares_rootOf hq).self).le_finish
    (Graph.shares_rootOf hq) (.inr hedge)
  omega

private theorem slotOf_notMem (h : plan.MadeOf graph streams slot)
    (hnode : graph.nodes[p]? = some node) (hkind : node.kind.isExecutable = true) :
    ∃ inputs output, node.inputs.mapM plan.slotOf = .ok inputs ∧
      plan.slotOf node.id = .ok output ∧ output ∉ inputs := by
  refine ⟨(graph.producers node).map fun q ↦ slot (graph.rootOf q), slot (graph.rootOf p), ?_,
    h.slotOf_id hnode, ?_⟩
  · rw [mapM_eq_ok_iff, List.forall₂_map_right_iff]
    refine (Graph.forall₂_producers hnode).imp fun input q hq ↦ ?_
    obtain ⟨other, hother, rfl⟩ := Graph.position?_eq_some_iff.1 hq
    exact h.slotOf_id hother
  · rw [List.mem_map]
    rintro ⟨q, hq, hslot⟩
    exact h.slot_ne hnode hkind ((Graph.edge_iff hnode).2 hq) hslot

private theorem slot_dtype (h : plan.MadeOf graph streams slot) (hb : b ∈ plan.buffers) :
    ∃ s, plan.slots[b.slot]? = some s ∧ s.id = b.slot ∧ s.dtype = b.dtype := by
  obtain ⟨p, hp, hshares⟩ := h.exists_buffer hb
  obtain ⟨_, hslot, _⟩ := h.of_buffer hp
  obtain ⟨node, hnode⟩ := Graph.exists_node hshares.lt_size
  obtain ⟨root, hroot⟩ := Graph.exists_node hshares.root_lt_size
  obtain ⟨b', hb', _, _, hdtype, _⟩ := h.buffer hnode
  rw [hp, Option.some.injEq] at hb'
  subst hb'
  obtain ⟨s, hs, hid, hsdtype⟩ := h.slots hshares.self
  refine ⟨s, by rw [hslot, hs], by rw [hid, hslot], ?_⟩
  rw [hsdtype, (AliasGroup.covers_ofRoot hshares.self).dtype_eq hroot, hdtype,
    hshares.dtype_eq hnode hroot]

private theorem alone (h : plan.MadeOf graph streams slot) (hp : graph.Shares p r)
    (hkept : graph.Dedicated p) (hb : plan.buffers[p]? = some b) (hc : c ∈ plan.buffers)
    (hslot : b.slot = c.slot) : c.aliasGroup = r := by
  obtain ⟨q, hq, hshares⟩ := h.exists_buffer hc
  rw [(h.of_shares hp hb).2.1, (h.of_buffer hq).2.1] at hslot
  rcases Nat.lt_trichotomy r c.aliasGroup with hlt | heq | hlt
  · exact absurd hkept ((h.lt_of_slot_eq hp.self hshares.self hslot hlt).2.1 p hp)
  · exact heq.symm
  · exact absurd hkept ((h.lt_of_slot_eq hshares.self hp.self hslot.symm hlt).2.2 p hp)

private theorem ancestor {r' m : Nat} (h : plan.MadeOf graph streams slot)
    (hstreams : 1 < streams) (hp : graph.Shares p r) (hq : graph.Shares q r')
    (hb : plan.buffers[p]? = some b) (hc : plan.buffers[q]? = some c) (hslot : b.slot = c.slot)
    (hlt : r < r') (hm : graph.Shares m r) (haccess : graph.Accesses e m) :
    graph.Ancestor e r' := by
  rw [(h.of_shares hp hb).2.1, (h.of_shares hq hc).2.1] at hslot
  have hover := h.handsOver hp.self hq.self hlt hslot
  rw [if_pos hstreams] at hover
  have hbefore := hover.happensBefore _ rfl e
    ((AliasGroup.covers_ofRoot hp.self).mem_accessors.2 ⟨m, hm, haccess⟩)
  rw [(AliasGroup.covers_ofRoot hq.self).root_eq] at hbefore
  exact Reachability.happensBefore_iff.1 hbefore

/-- The plan that is made is safe. -/
theorem safe (h : plan.MadeOf graph streams slot) : plan.Safe graph streams where
  length_buffers := h.length_buffers
  buffer_eq := by
    intro p node b hnode hb
    obtain ⟨b', hb', hid, hpos, hdtype, _⟩ := h.buffer hnode
    rw [hb, Option.some.injEq] at hb'
    subst hb'
    exact ⟨hid, hpos, hdtype⟩
  group_iff := by
    intro p r b hb
    have hshares := (h.of_buffer hb).1
    exact ⟨fun hr ↦ hr ▸ hshares, fun hr ↦ hshares.eq_rootOf.trans hr.eq_rootOf.symm⟩
  slot_eq := by
    intro p r b c hp hb hc
    rw [(h.of_shares hp hb).2.1, (h.of_shares hp.self hc).2.1]
  slot_dtype := h.slot_dtype
  alive := by
    intro p q r e b hp hq hb haccess
    have hcov := AliasGroup.covers_ofRoot hp.self
    rw [(h.of_shares hp hb).2.2]
    exact ⟨hcov.start_eq, Nat.le_trans hq.le haccess.le, hcov.le_finish hq haccess⟩
  alive_to_end := by
    intro p q r node b hp hq hb hnode hout
    rw [(h.of_shares hp hb).2.2]
    exact (AliasGroup.covers_ofRoot hp.self).size_le_finish hq hnode hout
  disjoint := h.disjoint
  conflicts_eq := by
    refine conflictsAmong_eq_nil fun b hb c hc ⟨hslot, hgroup, hoverlap⟩ ↦ ?_
    rw [h.disjoint hb hc hslot hgroup] at hoverlap
    cases hoverlap
  alone := h.alone
  slotOf_notMem := h.slotOf_notMem
  ancestor hstreams := fun hp hq hb hc hslot hlt _ hm haccess ↦
    h.ancestor hstreams hp hq hb hc hslot hlt hm haccess

end MadeOf

/-- A plan that was made is safe. -/
theorem safe_of_ofGraph (h : MemoryPlan.ofGraph graph streams = .ok plan) :
    plan.Safe graph streams := by
  obtain ⟨plan', slot, hplan, hmade⟩ := exists_madeOf graph streams
  obtain rfl := Except.ok.inj (h.symm.trans hplan)
  exact hmade.safe

/-- Every graph has a plan for every number of streams, and it is safe. -/
theorem exists_safe (graph : Graph) (streams : Nat) :
    ∃ plan, MemoryPlan.ofGraph graph streams = .ok plan ∧ plan.Safe graph streams := by
  obtain ⟨plan, slot, hplan, hmade⟩ := exists_madeOf graph streams
  exact ⟨plan, hplan, hmade.safe⟩

end TensorEngine.MemoryPlan
