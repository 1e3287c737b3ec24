import TensorEngine.Proofs.Memory.Accounting
import TensorEngine.Proofs.Memory.Places
import TensorEngine.Proofs.Operation.Acceptance
import TensorEngine.Proofs.Operation.Count

/-!
# Planned capacities suffice

The capacity of a slot is the largest of the capacities of its buffers, group by group and member
by member.  What a declared shape accepts has no more elements than the capacity of the shape, so a
slot of known capacity has room for every result that is ever kept in it.
-/

namespace TensorEngine

/-! ## Elements of accepted extents -/

namespace Shape

/-- Multiplying up admitted extents stays below multiplying up the bounds of the axes. -/
private theorem countFrom_le {axes : List Dim} {dims : Dims} {start bound capacity : Nat}
    (h : List.Forall₂ (fun dim extent ↦ dim.contains extent) axes dims) (hle : start ≤ bound)
    (hcapacity : axes.foldlM (fun count dim ↦ do
      Size.mul? count (← dim.upperBound?).toNat) bound = some capacity) :
    ∃ count, countFrom start dims = some count ∧ count ≤ capacity := by
  induction h generalizing start bound with
  | nil =>
    obtain rfl : bound = capacity := Option.some.inj hcapacity
    exact ⟨start, rfl, hle⟩
  | cons hcontains _ ih =>
    rw [List.foldlM_cons] at hcapacity
    simp only [Option.bind_eq_bind, Option.bind_eq_some_iff] at hcapacity
    obtain ⟨next, ⟨most, hmost, hnext⟩, hrest⟩ := hcapacity
    obtain ⟨rfl, hword⟩ := Size.mul?_eq_some_iff.1 hnext
    have hstep := Nat.mul_le_mul hle (Dim.toNat_le_upperBound hcontains hmost)
    obtain ⟨count, hcount, hbounded⟩ := ih hstep hrest
    refine ⟨count, ?_, hbounded⟩
    rw [countFrom_cons, Size.mul?_eq_some_iff.2 ⟨rfl, Nat.lt_of_le_of_lt hstep hword⟩,
      Option.bind_some, hcount]

/-- Accepted extents have a number of elements, and it is within the capacity of the shape. -/
theorem elementCount?_le {shape : Shape} {dims : Dims} {capacity : Nat} (h : shape.accepts dims)
    (hcapacity : shape.maxElementCount? = some capacity) :
    ∃ count, elementCount? dims = some count ∧ count ≤ capacity :=
  countFrom_le (accepts_iff.1 h) (Nat.le_refl 1) hcapacity

end Shape

/-! ## Capacities that cover others -/

/-- A known capacity has room for what another one asks for. -/
def Suffices (capacity needed : Option Nat) : Prop :=
  ∀ most ∈ capacity, ∃ count ∈ needed, count ≤ most

namespace Suffices

variable {a b c : Option Nat}

theorem refl (a : Option Nat) : Suffices a a := fun most hmost ↦ ⟨most, hmost, Nat.le_refl _⟩

theorem trans (h : Suffices a b) (h' : Suffices b c) : Suffices a c := by
  intro most hmost
  obtain ⟨middle, hmiddle, hle⟩ := h most hmost
  obtain ⟨count, hcount, hle'⟩ := h' middle hmiddle
  exact ⟨count, hcount, Nat.le_trans hle' hle⟩

theorem maxCapacity_left : Suffices (maxCapacity a b) a := by
  intro most hmost
  cases a <;> cases b <;> simp only [maxCapacity, Option.mem_def, Option.some.injEq,
    reduceCtorEq] at hmost
  subst hmost
  exact ⟨_, rfl, Nat.le_max_left _ _⟩

theorem maxCapacity_right : Suffices (maxCapacity a b) b := by
  intro most hmost
  cases a <;> cases b <;> simp only [maxCapacity, Option.mem_def, Option.some.injEq,
    reduceCtorEq] at hmost
  subst hmost
  exact ⟨_, rfl, Nat.le_max_right _ _⟩

end Suffices

namespace AliasGroup

variable {graph : Graph} {node : Node} {first : AliasGroup} {rest : List AliasGroup} {p r : Nat}

/-- Joined groups have room for each of them. -/
theorem suffices_foldl_join : ∀ member ∈ first :: rest,
    Suffices (rest.foldl join first).capacity member.capacity := by
  induction rest generalizing first with
  | nil =>
    intro member hmember
    obtain rfl := List.mem_singleton.1 hmember
    exact .refl _
  | cons next rest ih =>
    have hjoin := ih (first.join next) (List.mem_cons_self ..)
    intro member hmember
    rw [List.foldl_cons]
    rcases List.mem_cons.1 hmember with rfl | hmember
    · exact hjoin.trans .maxCapacity_left
    · rcases List.mem_cons.1 hmember with rfl | hmember
      · exact hjoin.trans .maxCapacity_right
      · exact ih member (List.mem_cons_of_mem _ hmember)

/-- A group has room for all buffers that share the elements of its start. -/
theorem suffices_ofRoot (hshares : graph.Shares p r) (hnode : graph.nodes[p]? = some node) :
    Suffices (ofRoot graph r).capacity node.output.capacity? := by
  obtain ⟨start, hstart, _⟩ := hshares.root
  obtain ⟨rest, hmembers⟩ := members_eq hstart hshares.self
  have hmem : single graph p node ∈ members graph r :=
    mem_members_iff.2 ⟨p, node, hnode, hshares, rfl⟩
  rw [hmembers] at hmem
  rw [ofRoot_of_members hmembers]
  exact suffices_foldl_join _ hmem

end AliasGroup

/-! ## Capacities of slots -/

namespace SlotUse

variable {reach : Option Reachability} {uses : List SlotUse} {use : SlotUse} {group : AliasGroup}
  {s : Nat}

/-- A group that gets a slot leaves all slots at least as large. -/
theorem exists_suffices_assign (reach : Option Reachability) (huse : uses[s]? = some use)
    (group : AliasGroup) :
    ∃ use', (assign reach uses group).1[s]? = some use' ∧
      Suffices use'.slot.capacity use.slot.capacity := by
  unfold assign
  split
  · rename_i slot _
    rw [List.getElem?_modify, huse]
    refine ⟨_, rfl, ?_⟩
    split
    · exact .maxCapacity_left
    · exact .refl _
  · exact ⟨use, List.getElem?_append_left (List.getElem?_eq_some_iff.1 huse).1 ▸ huse, .refl _⟩

/-- The slot that a group gets has room for it. -/
theorem exists_suffices_group (reach : Option Reachability) (uses : List SlotUse)
    (group : AliasGroup) :
    ∃ use, (assign reach uses group).1[(assign reach uses group).2]? = some use ∧
      Suffices use.slot.capacity group.capacity := by
  unfold assign
  split
  · rename_i slot hslot
    unfold reusable? at hslot
    split at hslot
    · cases hslot
    · obtain ⟨hlt, _⟩ := List.findIdx?_eq_some_iff_getElem.1 hslot
      rw [List.getElem?_modify_eq, List.getElem?_eq_getElem hlt]
      exact ⟨_, rfl, .maxCapacity_right⟩
  · exact ⟨_, List.getElem?_concat_length, .refl _⟩

/-- Every group is in a slot with room for it. -/
theorem exists_suffices_assignAll (reach : Option Reachability) (groups : List AliasGroup) :
    ∀ pair ∈ (assignAll reach groups).2, ∃ group ∈ groups, group.root = pair.1 ∧
      ∃ use, (assignAll reach groups).1[pair.2]? = some use ∧
        Suffices use.slot.capacity group.capacity := by
  induction groups using List.reverseRecOn with
  | nil => exact nofun
  | append_singleton groups group ih =>
    intro pair hpair
    rw [assignAll, List.foldl_append] at hpair ⊢
    change pair ∈ (assignAll reach groups).2 ++ _ at hpair
    rcases List.mem_append.1 hpair with hpair | hpair
    · obtain ⟨other, hother, hroot, use, huse, hsuffices⟩ := ih pair hpair
      obtain ⟨use', huse', hgrown⟩ := exists_suffices_assign reach huse group
      exact ⟨other, List.mem_append_left _ hother, hroot, use', huse', hgrown.trans hsuffices⟩
    · obtain rfl := List.mem_singleton.1 hpair
      obtain ⟨use, huse, hsuffices⟩ := exists_suffices_group reach (assignAll reach groups).1 group
      exact ⟨group, List.mem_append_right _ (List.mem_singleton_self group), rfl, use, huse,
        hsuffices⟩

end SlotUse

namespace MemoryPlan

variable {graph : Graph} {plan : MemoryPlan} {streams p : Nat} {node : Node} {slot : BufferSlot}

/-- The slots that the groups of a graph get. -/
def assigned (graph : Graph) (streams : Nat) : List SlotUse × List (Nat × Nat) :=
  SlotUse.assignAll (if 1 < streams then some (.ofGraph graph) else none)
    (AliasGroup.ofGraph graph)

theorem slots_eq (hplan : ofGraph graph streams = .ok plan) :
    plan.slots = (assigned graph streams).1.map SlotUse.slot := by
  rw [ofGraph, Graph.checkAliases_eq_ok, ok_bind] at hplan
  exact (Except.ok.inj hplan) ▸ rfl

/-- A place is in the slot of its group. -/
theorem place_eq_lookup (hplan : ofGraph graph streams = .ok plan)
    (hnode : graph.nodes[p]? = some node) :
    plan.place p = ((assigned graph streams).2.lookup (graph.rootOf p)).getD 0 := by
  have hzip : (graph.nodes.zip graph.aliasRoots)[p]? = some (node, graph.rootOf p) :=
    List.getElem?_zip_eq_some.2 ⟨hnode, Graph.getElem?_aliasRoots (Graph.lt_size hnode)⟩
  rw [ofGraph, Graph.checkAliases_eq_ok, ok_bind] at hplan
  have hbuffers : plan.buffers = (graph.nodes.zip graph.aliasRoots).zipIdx.map fun entry ↦
      buffer graph (AliasGroup.ofGraph graph) (assigned graph streams).2 entry.1.1 entry.2
        entry.1.2 := (Except.ok.inj hplan) ▸ rfl
  rw [place, hbuffers, List.getElem?_map, List.getElem?_zipIdx, hzip]
  rfl

/-- Every group has a slot, which has room for it. -/
theorem exists_suffices_root {r : Nat} (h : graph.Shares r r) (streams : Nat) :
    ∃ use, (assigned graph streams).1[((assigned graph streams).2.lookup r).getD 0]? = some use ∧
      Suffices use.slot.capacity (AliasGroup.ofRoot graph r).capacity := by
  have hroomy := SlotUse.exists_suffices_assignAll
    (if 1 < streams then some (.ofGraph graph) else none) (AliasGroup.ofGraph graph)
  obtain ⟨placed, hgroups, hslots, _⟩ := SlotUse.exists_assigned
    (if 1 < streams then some (.ofGraph graph) else none) (AliasGroup.ofGraph graph)
  rw [← assigned] at hroomy hslots
  cases hlookup : (assigned graph streams).2.lookup r with
  | none =>
    have hmem : AliasGroup.ofRoot graph r ∈ placed.map Prod.fst :=
      hgroups ▸ AliasGroup.mem_ofGraph_iff.2 ⟨r, h, rfl⟩
    obtain ⟨pair, hpair, hgroup⟩ := List.mem_map.1 hmem
    have hother := List.lookup_eq_none_iff.1 hlookup (pair.1.root, pair.2)
      (hslots ▸ List.mem_map_of_mem hpair)
    rw [hgroup, (AliasGroup.covers_ofRoot h).root_eq] at hother
    simp at hother
  | some s =>
    obtain ⟨front, back, hassigned, _⟩ := List.lookup_eq_some_iff.1 hlookup
    obtain ⟨group, hgroup, hroot, hsuffices⟩ := hroomy (r, s)
      (hassigned ▸ List.mem_append_right _ (List.mem_cons_self ..))
    obtain ⟨start, hself, rfl⟩ := AliasGroup.mem_ofGraph_iff.1 hgroup
    rw [(AliasGroup.covers_ofRoot hself).root_eq] at hroot
    obtain rfl : start = r := hroot
    exact hsuffices

/-- The slot of a place has room for everything that its node declares. -/
theorem suffices_slot (hplan : ofGraph graph streams = .ok plan)
    (hnode : graph.nodes[p]? = some node) (hslot : plan.slots[plan.place p]? = some slot) :
    Suffices slot.capacity node.output.capacity? := by
  have hshares := Graph.shares_rootOf (Graph.lt_size hnode)
  obtain ⟨use, huse, hsuffices⟩ := exists_suffices_root hshares.self streams
  rw [slots_eq hplan, place_eq_lookup hplan hnode, List.getElem?_map, huse] at hslot
  obtain rfl := Option.some.inj hslot
  exact hsuffices.trans (AliasGroup.suffices_ofRoot hshares hnode)

/-- Every place has a slot with room for everything that its declared shape accepts. -/
def Ample (plan : MemoryPlan) (graph : Graph) : Prop :=
  ∀ {p : Nat} {node : Node}, graph.nodes[p]? = some node →
    ∃ slot, plan.slots[plan.place p]? = some slot ∧ ∀ dims, node.output.shape.accepts dims →
      ∃ count, elementCount? dims = some count ∧ count ≤ slot.capacity.getD 0

/-- A plan is ample when all its slots have a capacity. -/
theorem ample_of_ofGraph (hplan : ofGraph graph streams = .ok plan)
    (hcapacity : ∀ slot ∈ plan.slots, slot.capacity ≠ none) : plan.Ample graph := by
  intro p node hnode
  obtain ⟨slot, hslot, _⟩ := (safe_of_ofGraph hplan).slot_place hnode
  refine ⟨slot, hslot, fun dims haccepts ↦ ?_⟩
  obtain ⟨most, hmost⟩ :=
    Option.ne_none_iff_exists'.1 (hcapacity slot (List.mem_of_getElem? hslot))
  obtain ⟨declared, hdeclared, hle⟩ := suffices_slot hplan hnode hslot most hmost
  obtain ⟨count, hcount, hle'⟩ := Shape.elementCount?_le haccepts hdeclared
  refine ⟨count, hcount, ?_⟩
  rw [hmost, Option.getD_some]
  exact Nat.le_trans hle' hle

end MemoryPlan

/-! ## Slots of their planned capacities -/

namespace MemoryPool

variable {graph : Graph} {plan : MemoryPlan} {pool : MemoryPool} {slot : BufferSlot}
  {data data' : TensorData} {node : Node} {dims : Dims} {p s n : Nat}

/-- Every slot has as many elements as its capacity says, and all their bytes are counted. -/
structure AsPlanned (pool : MemoryPool) (plan : MemoryPlan) : Prop where
  exists_data : ∀ {s : Nat} {slot : BufferSlot}, plan.slots[s]? = some slot →
    ∃ data, pool.slots[s]? = some data ∧ data.size = slot.capacity.getD 0
  allocated_eq : pool.allocated = plan.bytes

/-- A request within the capacity of a slot changes nothing. -/
theorem AsPlanned.ensureCapacity_eq (h : pool.AsPlanned plan) (hslot : plan.slots[s]? = some slot)
    (hroom : n ≤ slot.capacity.getD 0) : pool.ensureCapacity s n = .ok (false, pool) := by
  obtain ⟨data, hdata, hsize⟩ := h.exists_data hslot
  rw [← hsize] at hroom
  rw [ensureCapacity, read_eq_ok_iff.2 hdata, ok_bind, if_pos hroom]
  rfl

/-- There is room in the slot of a place for all extents that its declared shape accepts. -/
theorem AsPlanned.ensureCapacity_place (h : pool.AsPlanned plan) (hample : plan.Ample graph)
    (hnode : graph.nodes[p]? = some node) (haccepts : node.output.shape.accepts dims)
    (hcount : elementCount? dims = some n) :
    pool.ensureCapacity (plan.place p) n = .ok (false, pool) := by
  obtain ⟨slot, hslot, hroom⟩ := hample hnode
  obtain ⟨count, hcount', hle⟩ := hroom dims haccepts
  obtain rfl := Option.some.inj (hcount.symm.trans hcount')
  exact h.ensureCapacity_eq hslot hle

/-- As many elements in place of others keep the slots at their capacities. -/
theorem AsPlanned.set (h : pool.AsPlanned plan) (hdata : pool.slots[s]? = some data)
    (hsize : data'.size = data.size) : (pool.set s data').AsPlanned plan := by
  refine ⟨fun {t slot} hslot ↦ ?_, h.allocated_eq⟩
  obtain ⟨old, hold, hcapacity⟩ := h.exists_data hslot
  rcases eq_or_ne s t with rfl | hne
  · obtain rfl := Option.some.inj (hdata.symm.trans hold)
    exact ⟨data', List.getElem?_set_self (List.getElem?_eq_some_iff.1 hdata).1,
      hsize.trans hcapacity⟩
  · exact ⟨old, (List.getElem?_set_ne hne).trans hold, hcapacity⟩

end MemoryPool

end TensorEngine
