import TensorEngine.Proofs.Execution.Simulation

/-!
# Orders of visits

In an admissible order every visit finds its operands, and finds them where the plan put them.  On
one stream that takes all places in front of a place.  On several streams it only takes the
operands, since the plan hands a slot over only to descendants of all places that touch it.  A run
in such an order computes the naive values of all its places.
-/

namespace TensorEngine

open MemoryPlan

variable {graph : Graph} {plan : MemoryPlan} {streams p q k n : Nat} {bindings : Bindings}
  {done rest : List Nat}

namespace MemoryPlan

/-- The rest of the places may be visited in this order after those that are done. -/
inductive Admissible (plan : MemoryPlan) (graph : Graph) : (done rest : List Nat) → Prop
  | nil {done : List Nat} : Admissible plan graph done []
  | cons {done rest : List Nat} {p : Nat} (hclosed : plan.Closed graph done)
      (hp : p < graph.size) (hnew : p ∉ done) (hedges : ∀ q, graph.Edge q p → q ∈ done)
      (hrest : Admissible plan graph (p :: done) rest) : Admissible plan graph done (p :: rest)

theorem Admissible.lt_size (h : Admissible plan graph done rest) (hp : p ∈ rest) :
    p < graph.size := by
  induction h with
  | nil => exact absurd hp List.not_mem_nil
  | cons _ hlt _ _ _ ih =>
    rcases List.mem_cons.1 hp with rfl | hp
    · exact hlt
    · exact ih hp

/-- With every place that was visited, all places in front of it were. -/
theorem closed_of_segment (hsafe : plan.Safe graph streams)
    (h : ∀ p q, q ∈ done → p < q → p ∈ done) : plan.Closed graph done where
  edge hq hedge := h _ _ hq hedge.lt
  handedOver hq hr' hplace hlt haccess hdone :=
    h _ _ hdone (hsafe.lt_of_accesses hq hr' hplace hlt hq haccess)

theorem mem_of_ancestor (hedges : ∀ p q, q ∈ done → graph.Edge p q → p ∈ done)
    (h : graph.Ancestor p q) (hq : q ∈ done) : p ∈ done := by
  induction h using Relation.TransGen.head_induction_on with
  | single hedge => exact hedges _ _ hq hedge
  | head hedge _ ih => exact hedges _ _ ih hedge

/-- On several streams nothing has to come before a place but its ancestors. -/
theorem closed_of_edges (hsafe : plan.Safe graph streams) (hstreams : 1 < streams)
    (hedges : ∀ p q, q ∈ done → graph.Edge p q → p ∈ done) : plan.Closed graph done where
  edge hq hedge := hedges _ _ hq hedge
  handedOver hq hr' hplace hlt haccess hdone :=
    mem_of_ancestor hedges
      (hsafe.ancestor_of_accesses hstreams hq hr' hplace hlt hq haccess) hdone

end MemoryPlan

/-! ## Runs -/

namespace Slots

variable {ι : Type} {context : ExecutionContext ι} {slots : Slots} {tensor : HostTensor}

/-- Before the first visit there is nothing to simulate. -/
theorem simulates_nil {pool : MemoryPool}
    (hkept : Kept graph plan ⟨pool, List.replicate graph.size none⟩) :
    (⟨pool, List.replicate graph.size none⟩ : Slots).Simulates graph bindings plan [] :=
  ⟨List.length_replicate, hkept, fun hp ↦ absurd hp List.not_mem_nil⟩

/-- A run in an admissible order computes the naive values, up to the first place without one. -/
theorem visitAll_simulates (context : ExecutionContext ι) (hsafe : plan.Safe context.graph streams)
    (hconstants : context.graph.ConstantsWellFormed) (hbindings : context.bindings.WellFormed)
    (horder : Admissible plan context.graph done rest) :
    ∀ {slots : Slots}, slots.Simulates context.graph context.bindings plan done →
      let answer := slots.visitAll context plan rest
      Refused answer.1 ∨
        (answer.1 = .ok () ∧
          answer.2.Simulates context.graph context.bindings plan (rest.reverse ++ done)) ∨
        ((∃ p ∈ rest, context.graph.value context.bindings p = none) ∧
          ∃ error, answer.1 = .error error) := by
  induction horder with
  | nil => exact fun hsim ↦ .inr (.inl ⟨rfl, hsim⟩)
  | @cons done rest p hclosed hp hnew hedges _ ih =>
    intro slots hsim
    have hvisits := hsim.visit context hsafe hconstants hbindings hclosed hp hnew hedges
    simp only [visitAll]
    generalize slots.visit context plan p = answer at hvisits
    obtain ⟨result, slots'⟩ := answer
    rcases hvisits with ⟨requested, slot, reason, hrefused⟩ | ⟨hok, hsim'⟩ | ⟨hnone, error, herror⟩
    · obtain rfl : result = _ := hrefused
      exact .inl ⟨requested, slot, reason, rfl⟩
    · obtain rfl : result = .ok () := hok
      rcases ih hsim' with hrefused | ⟨hok, hsim''⟩ | ⟨⟨q, hq, hnone⟩, hfails⟩
      · exact .inl hrefused
      · refine .inr (.inl ⟨hok, ?_⟩)
        rwa [List.reverse_cons, List.append_assoc, List.singleton_append]
      · exact .inr (.inr ⟨⟨q, List.mem_cons_of_mem _ hq, hnone⟩, hfails⟩)
    · obtain rfl : result = .error error := herror
      exact .inr (.inr ⟨⟨p, List.mem_cons_self .., hnone⟩, error, rfl⟩)

/-- After all visits the slot of an output holds its naive value. -/
theorem Simulates.output {node : Node} (h : slots.Simulates graph bindings plan done)
    (hsafe : plan.Safe graph streams) (hall : ∀ p < graph.size, p ∈ done)
    (hnode : graph.nodes[p]? = some node) (houtput : node.id ∈ graph.outputs) :
    ∃ tensor, graph.value bindings p = some tensor ∧
      slots.extents[p]? = some (some tensor.dims) ∧ slots.pool.Holds plan p tensor := by
  obtain ⟨tensor, hvalue, hextents, hintact⟩ := h.exists_value (hall p (Graph.lt_size hnode))
  refine ⟨tensor, hvalue, hextents, hintact fun r hr q _ r' hr' hplace ↦ ?_⟩
  exact Nat.le_of_eq (hsafe.eq_of_dedicated hr hr' hplace.symm hr
    ⟨node, hnode, .inr (.inr houtput)⟩)

end Slots

end TensorEngine
