import TensorEngine.Proofs.Memory.Safety

/-!
# The slots of places

What an execution needs to know about a safe plan: which slot each place fills, that the slot has
the element type of the place, and who else uses the slot.  Of two groups in one slot, the earlier
one is no longer touched once the later one starts.
-/

namespace TensorEngine.MemoryPlan

variable {graph : Graph} {plan : MemoryPlan} {streams : Nat} {node : Node} {p q r r' m e : Nat}

def place (plan : MemoryPlan) (p : Nat) : Nat := ((plan.buffers[p]?).map BufferSpec.slot).getD 0

def operandPlaces (plan : MemoryPlan) (graph : Graph) (node : Node) : List Nat :=
  (graph.producers node).map plan.place

theorem place_eq {b : BufferSpec} (hb : plan.buffers[p]? = some b) : plan.place p = b.slot := by
  rw [place, hb, Option.map_some, Option.getD_some]

namespace Safe

theorem exists_buffer (h : plan.Safe graph streams) (hp : p < graph.size) :
    ∃ b, plan.buffers[p]? = some b := by
  rw [← h.length_buffers] at hp
  exact ⟨_, List.getElem?_eq_getElem hp⟩

/-- The plan finds the slot of a place by the name of its node. -/
theorem slotOf_id (h : plan.Safe graph streams) (hnode : graph.nodes[p]? = some node) :
    plan.slotOf node.id = .ok (plan.place p) := by
  obtain ⟨b, hb⟩ := h.exists_buffer (Graph.lt_size hnode)
  have hfind := buffer?_id h.length_buffers (fun hother hc ↦ (h.buffer_eq hother hc).1) hnode hb
  rw [slotOf, slot?, hfind, Option.map_some, place_eq hb]

theorem slotOf_inputs (h : plan.Safe graph streams) (hnode : graph.nodes[p]? = some node) :
    node.inputs.mapM plan.slotOf = .ok (plan.operandPlaces graph node) := by
  rw [mapM_eq_ok_iff, operandPlaces, List.forall₂_map_right_iff]
  refine (Graph.forall₂_producers hnode).imp fun input q hq ↦ ?_
  obtain ⟨other, hother, rfl⟩ := Graph.position?_eq_some_iff.1 hq
  exact h.slotOf_id hother

/-- The result of an executable node is not written over an operand. -/
theorem place_notMem (h : plan.Safe graph streams) (hnode : graph.nodes[p]? = some node)
    (hkind : node.kind.isExecutable = true) : plan.place p ∉ plan.operandPlaces graph node := by
  obtain ⟨inputs, output, hinputs, houtput, hmem⟩ := h.slotOf_notMem hnode hkind
  rw [h.slotOf_inputs hnode] at hinputs
  rw [h.slotOf_id hnode] at houtput
  rw [Except.ok.inj hinputs, Except.ok.inj houtput]
  exact hmem

theorem place_shares (h : plan.Safe graph streams) (hshares : graph.Shares p r) :
    plan.place p = plan.place r := by
  obtain ⟨b, hb⟩ := h.exists_buffer hshares.lt_size
  obtain ⟨c, hc⟩ := h.exists_buffer hshares.root_lt_size
  rw [place_eq hb, place_eq hc, h.slot_eq hshares hb hc]

/-- The slot of a place has the declared element type. -/
theorem slot_place (h : plan.Safe graph streams) (hnode : graph.nodes[p]? = some node) :
    ∃ slot, plan.slots[plan.place p]? = some slot ∧ slot.dtype = node.output.dtype := by
  obtain ⟨b, hb⟩ := h.exists_buffer (Graph.lt_size hnode)
  obtain ⟨slot, hslot, _, hdtype⟩ := h.slot_dtype (List.mem_of_getElem? hb)
  exact ⟨slot, by rw [place_eq hb, hslot], hdtype.trans (h.buffer_eq hnode hb).2.2⟩

/-- A group with a parameter, a constant or an output has its slot to itself. -/
theorem eq_of_dedicated (h : plan.Safe graph streams) (hp : graph.Shares p r)
    (hq : graph.Shares q r') (hplace : plan.place p = plan.place q) (hm : graph.Shares m r)
    (hkept : graph.Dedicated m) : r' = r := by
  obtain ⟨b, hb⟩ := h.exists_buffer hm.lt_size
  obtain ⟨c, hc⟩ := h.exists_buffer hq.lt_size
  rw [h.place_shares hp, ← h.place_shares hm, place_eq hb, place_eq hc] at hplace
  exact ((h.group_iff hc).2 hq).symm.trans
    (h.alone hm hkept hb (List.mem_of_getElem? hc) hplace)

/-- Nothing else is computed into the slot of a place that keeps it to itself. -/
theorem place_ne (h : plan.Safe graph streams) (hp : graph.Shares p p) (hkept : graph.Dedicated p)
    (hq : graph.Shares q q) (hne : q ≠ p) : plan.place q ≠ plan.place p := fun hplace ↦
  hne (h.eq_of_dedicated hp hq hplace.symm hp hkept)

/-- Of two groups in one slot, the earlier one is no longer touched once the later one starts. -/
theorem lt_of_accesses (h : plan.Safe graph streams) (hp : graph.Shares p r)
    (hq : graph.Shares q r') (hplace : plan.place p = plan.place q) (hlt : r < r')
    (hm : graph.Shares m r) (haccess : graph.Accesses e m) : e < r' := by
  obtain ⟨b, hb⟩ := h.exists_buffer hp.lt_size
  obtain ⟨c, hc⟩ := h.exists_buffer hq.lt_size
  rw [place_eq hb, place_eq hc] at hplace
  have hgroup : b.aliasGroup ≠ c.aliasGroup := by
    rw [(h.group_iff hb).2 hp, (h.group_iff hc).2 hq]
    exact Nat.ne_of_lt hlt
  have hover := h.disjoint (List.mem_of_getElem? hb) (List.mem_of_getElem? hc) hplace hgroup
  obtain ⟨hstart, _, hfinish⟩ := h.alive hp hm hb haccess
  obtain ⟨hstart', _, hfinish'⟩ := h.alive hq hq.self hc (.inl rfl)
  rw [LiveRange.overlaps, hstart, hstart', Bool.and_eq_false_iff, decide_eq_false_iff_not,
    decide_eq_false_iff_not] at hover
  omega

/-- On several streams, every place that touches the earlier of two groups in one slot is an
ancestor of the start of the later one. -/
theorem ancestor_of_accesses (h : plan.Safe graph streams) (hstreams : 1 < streams)
    (hp : graph.Shares p r) (hq : graph.Shares q r') (hplace : plan.place p = plan.place q)
    (hlt : r < r') (hm : graph.Shares m r) (haccess : graph.Accesses e m) :
    graph.Ancestor e r' := by
  obtain ⟨b, hb⟩ := h.exists_buffer hp.lt_size
  obtain ⟨c, hc⟩ := h.exists_buffer hq.lt_size
  rw [place_eq hb, place_eq hc] at hplace
  exact h.ancestor hstreams hp hq hb hc hplace hlt hm haccess

end Safe

end TensorEngine.MemoryPlan
