import TensorEngine.Graph.Reachability
import TensorEngine.Proofs.Graph.Order
import Mathlib.Data.List.Induction
import Mathlib.Order.Defs.Unbundled

/-!
# Reachability is ancestry

The rows of a `Reachability` are computed place by place, each from the rows in front of it.  They
hold exactly the ancestors: `Reachability.happensBefore` decides whether a chain of operand edges
leads from one place to another.  The words that the rows are packed into do not show: there is a
bit for every place of the graph, and behind the last word nothing is asked.
-/

namespace TensorEngine

/-! ## Lists that are computed place by place -/

section Rows

variable {α β : Type} {f : List β → α → β}

theorem length_foldl_snoc (items : List α) :
    (items.foldl (fun rows item ↦ rows ++ [f rows item]) []).length = items.length := by
  induction items using List.reverseRecOn with
  | nil => rfl
  | append_singleton items item ih => simp [ih]

/-- Each row is computed from the rows in front of it. -/
theorem getElem?_foldl_snoc {items : List α} {item : α} {p : Nat} (h : items[p]? = some item) :
    (items.foldl (fun rows item ↦ rows ++ [f rows item]) [])[p]? =
      some (f ((items.foldl (fun rows item ↦ rows ++ [f rows item]) []).take p) item) := by
  induction items using List.reverseRecOn with
  | nil => simp at h
  | append_singleton items last ih =>
    have hlen := length_foldl_snoc (f := f) items
    rw [List.foldl_append, List.foldl_cons, List.foldl_nil]
    rcases Nat.lt_trichotomy p items.length with hlt | rfl | hgt
    · rw [List.getElem?_append_left (by omega), List.take_append_of_le_length (by omega)]
      exact ih (by rwa [List.getElem?_append_left hlt] at h)
    · rw [List.getElem?_append_right (by omega)] at h ⊢
      simp only [Nat.sub_self, List.getElem?_cons_zero, Option.some.injEq] at h
      rw [hlen, Nat.sub_self, List.getElem?_cons_zero, h, ← hlen, List.take_left']
      rfl
    · rw [List.getElem?_eq_none (by simp; omega)] at h
      cases h

end Rows

/-! ## Packed sets -/

namespace PlaceSet

variable {set other : PlaceSet} {words e p w : Nat}

private theorem toNat_bitIndex : (UInt64.ofNat (p % wordBits)).toNat = p % wordBits :=
  UInt64.toNat_ofNat_of_lt' (Nat.lt_trans (Nat.mod_lt _ (by decide)) (by decide))

/-- A place is found as a bit of its word. -/
theorem holds_eq_testBit :
    set.holds e = (set.getD (e / wordBits) 0).toNat.testBit (e % wordBits) := by
  have hbit : e % wordBits < 64 := Nat.mod_lt _ (by decide)
  rw [holds, Nat.testBit_eq_decide_div_mod_eq, decide_eq_decide, ← UInt64.toNat_inj,
    UInt64.toNat_and, UInt64.toNat_shiftRight, toNat_bitIndex, Nat.mod_eq_of_lt hbit,
    Nat.shiftRight_eq_div_pow]
  exact Eq.congr_left (Nat.and_one_is_mod _)

theorem holds_empty : (empty words).holds e = false := by
  rw [holds_eq_testBit, empty, List.getD_eq_getElem?_getD, List.getElem?_replicate]
  split <;> simp

@[simp] theorem length_add : (set.add p).length = set.length := List.length_modify ..

@[simp] theorem length_absorb : (set.absorb other).length = set.length := by
  fun_induction absorb set other with
  | case1 word words other others ih => rw [List.length_cons, List.length_cons, ih]
  | case2 => rfl

/-- The word of a single place has one bit. -/
private theorem toNat_bit : (1 <<< UInt64.ofNat (p % wordBits) : UInt64).toNat =
    1 <<< (p % wordBits) := by
  have hbit : p % wordBits < 64 := Nat.mod_lt _ (by decide)
  rw [UInt64.toNat_shiftLeft, toNat_bitIndex, Nat.mod_eq_of_lt hbit, UInt64.toNat_one]
  refine Nat.mod_eq_of_lt ?_
  rw [Nat.one_shiftLeft]
  exact Nat.pow_lt_pow_right (by decide) hbit

private theorem getD_add (h : w < set.length) : (set.add p).getD w 0 =
    if p / wordBits = w then set.getD w 0 ||| 1 <<< UInt64.ofNat (p % wordBits)
    else set.getD w 0 := by
  rw [add, List.getD_eq_getElem?_getD, List.getElem?_modify, List.getD_eq_getElem?_getD,
    List.getElem?_eq_getElem h]
  rfl

/-- A place goes into its word, if there is one; the bits of all other places stay. -/
theorem holds_add (h : p / wordBits < set.length) :
    (set.add p).holds e = true ↔ e = p ∨ set.holds e = true := by
  rw [holds_eq_testBit, holds_eq_testBit]
  by_cases hword : p / wordBits = e / wordBits
  · have hsame : p % wordBits = e % wordBits ↔ e = p := by
      rw [← Nat.div_add_mod e wordBits, ← Nat.div_add_mod p wordBits, hword]
      simp [eq_comm]
    rw [getD_add (hword ▸ h), if_pos hword, UInt64.toNat_or, toNat_bit, Nat.testBit_or,
      Nat.one_shiftLeft, Nat.testBit_two_pow, Bool.or_eq_true, decide_eq_true_eq, hsame, or_comm]
  · have hne : e ≠ p := fun heq ↦ hword (heq ▸ rfl)
    rw [add, List.getD_eq_getElem?_getD, List.getElem?_modify_ne _ _ hword,
      ← List.getD_eq_getElem?_getD, or_iff_right hne]

private theorem getD_absorb (h : w < set.length) :
    (set.absorb other).getD w 0 = set.getD w 0 ||| other.getD w 0 := by
  induction set generalizing other w with
  | nil => cases h
  | cons word words ih =>
    cases other with
    | nil => simp [absorb]
    | cons first others =>
      cases w with
      | zero => rfl
      | succ w => exact ih (Nat.lt_of_succ_lt_succ h)

theorem holds_absorb (h : e / wordBits < set.length) :
    (set.absorb other).holds e = true ↔ set.holds e = true ∨ other.holds e = true := by
  rw [holds_eq_testBit, holds_eq_testBit, holds_eq_testBit, getD_absorb h, UInt64.toNat_or,
    Nat.testBit_or, Bool.or_eq_true]

/-- The words for a number of places have room for each of them. -/
theorem word_lt_wordsFor {size : Nat} (h : p < size) : p / wordBits < wordsFor size := by
  unfold wordsFor Size.ceilDiv wordBits
  omega

end PlaceSet

namespace Reachability

open PlaceSet

variable {graph : Graph} {node : Node} {words e p q : Nat} {rows : List PlaceSet}
  {producers : List Nat}

/-! ## Rows -/

theorem length_withProducer {set : PlaceSet} : (withProducer rows set p).length = set.length := by
  rw [withProducer, length_absorb, length_add]

/-- With a producer come its ancestors. -/
theorem holds_withProducer {set : PlaceSet} (hp : p / wordBits < set.length)
    (he : e / wordBits < set.length) : (withProducer rows set p).holds e = true ↔
      set.holds e = true ∨ e = p ∨ (rows.getD p []).holds e = true := by
  rw [withProducer, holds_absorb (by rwa [length_add]), holds_add hp, or_assoc, or_left_comm]

theorem length_row : (row words rows producers).length = words := by
  suffices h : ∀ set : PlaceSet,
      (producers.foldl (withProducer rows) set).length = set.length by
    rw [row, h, PlaceSet.empty, List.length_replicate]
  induction producers with
  | nil => exact fun _ ↦ rfl
  | cons q producers ih =>
    intro set
    rw [List.foldl_cons, ih, length_withProducer]

/-- A place is in the row of some producers when it is one of them or in the row of one of
them. -/
theorem holds_row (h : ∀ q ∈ producers, q / wordBits < words) (he : e / wordBits < words) :
    (row words rows producers).holds e = true ↔
      ∃ q ∈ producers, e = q ∨ (rows.getD q []).holds e = true := by
  suffices hfold : ∀ set : PlaceSet, set.length = words →
      ((producers.foldl (withProducer rows) set).holds e = true ↔
        set.holds e = true ∨ ∃ q ∈ producers, e = q ∨ (rows.getD q []).holds e = true) by
    rw [row, hfold (PlaceSet.empty words) List.length_replicate, holds_empty]
    simp
  induction producers with
  | nil => simp
  | cons q producers ih =>
    intro set hset
    obtain ⟨hq, hrest⟩ := List.forall_mem_cons.1 h
    rw [List.foldl_cons, ih hrest _ (length_withProducer.trans hset),
      holds_withProducer (hset ▸ hq) (hset ▸ he), or_assoc]
    simp only [List.mem_cons, exists_eq_or_imp]

theorem length_ancestors : (ofGraph graph).ancestors.length = graph.size :=
  length_foldl_snoc graph.nodes

theorem getElem?_ancestors (h : graph.nodes[p]? = some node) :
    (ofGraph graph).ancestors[p]? = some (row (wordsFor graph.size)
      ((ofGraph graph).ancestors.take p) (graph.producers node)) :=
  getElem?_foldl_snoc h

/-- All rows have the same number of words. -/
theorem length_of_mem_ancestors {set : PlaceSet} (h : set ∈ (ofGraph graph).ancestors) :
    set.length = (ofGraph graph).words := by
  obtain ⟨p, hp⟩ := List.mem_iff_getElem?.1 h
  have hlt : p < graph.size := length_ancestors ▸ (List.getElem?_eq_some_iff.1 hp).1
  obtain ⟨node, hnode⟩ := Graph.exists_node hlt
  rw [getElem?_ancestors hnode] at hp
  rw [← Option.some.inj hp, length_row]
  rfl

/-! ## Ancestors -/

theorem happensBefore_eq_true_iff {reach : Reachability} : reach.happensBefore e p = true ↔
    e / wordBits < reach.words ∧ (reach.ancestors.getD p []).holds e = true := by
  rw [happensBefore, Bool.and_eq_true, decide_eq_true_eq]

/-- A place happens before another one when it is one of its producers or happens before one of
them. -/
theorem happensBefore_step (h : graph.nodes[p]? = some node) :
    (ofGraph graph).happensBefore e p = true ↔
      ∃ q ∈ graph.producers node, e = q ∨ (ofGraph graph).happensBefore e q = true := by
  have hlt : ∀ q ∈ graph.producers node, q < p := fun q hq ↦ ((Graph.edge_iff h).2 hq).lt
  have hroom : ∀ q ∈ graph.producers node, q / wordBits < (ofGraph graph).words := fun q hq ↦
    word_lt_wordsFor (Nat.lt_trans (hlt q hq) (Graph.lt_size h))
  have hearlier : ∀ q ∈ graph.producers node,
      ((ofGraph graph).ancestors.take p).getD q [] = (ofGraph graph).ancestors.getD q [] := by
    intro q hq
    rw [List.getD_eq_getElem?_getD, List.getElem?_take_of_lt (hlt q hq),
      ← List.getD_eq_getElem?_getD]
  rw [happensBefore_eq_true_iff, List.getD_eq_getElem?_getD, getElem?_ancestors h,
    Option.getD_some]
  constructor
  · rintro ⟨hword, hholds⟩
    obtain ⟨q, hq, hcase⟩ := (holds_row hroom hword).1 hholds
    rw [hearlier q hq] at hcase
    exact ⟨q, hq, hcase.imp_right fun hrow ↦ happensBefore_eq_true_iff.2 ⟨hword, hrow⟩⟩
  · rintro ⟨q, hq, hcase⟩
    have hword : e / wordBits < (ofGraph graph).words := by
      rcases hcase with rfl | hbefore
      · exact hroom e hq
      · exact (happensBefore_eq_true_iff.1 hbefore).1
    refine ⟨hword, (holds_row hroom hword).2 ⟨q, hq, ?_⟩⟩
    rw [hearlier q hq]
    exact hcase.imp_right fun hbefore ↦ (happensBefore_eq_true_iff.1 hbefore).2

/-- A place happens before another one exactly when it is an ancestor. -/
theorem happensBefore_iff : (ofGraph graph).happensBefore e p = true ↔ graph.Ancestor e p := by
  induction p using Nat.strongRecOn with
  | ind p ih =>
    by_cases hp : p < graph.size
    · obtain ⟨node, hnode⟩ := Graph.exists_node hp
      rw [happensBefore_step hnode, Graph.Ancestor, Relation.TransGen.tail'_iff]
      refine exists_congr fun q ↦ ?_
      rw [and_comm, ← Graph.edge_iff hnode]
      refine and_congr_left fun hedge ↦ ?_
      rw [ih q hedge.lt, Relation.reflTransGen_iff_eq_or_transGen, @eq_comm _ e q]
      rfl
    · constructor
      · intro h
        have hnone : (ofGraph graph).ancestors.getD p [] = PlaceSet.empty 0 := by
          rw [List.getD_eq_getElem?_getD,
            List.getElem?_eq_none (by rw [length_ancestors]; exact Nat.not_lt.1 hp)]
          rfl
        have hholds := (happensBefore_eq_true_iff.1 h).2
        rw [hnone, holds_empty] at hholds
        cases hholds
      · intro h
        obtain ⟨q, _, hedge⟩ := Relation.TransGen.tail'_iff.1 h
        exact absurd hedge.lt_size hp

/-- What has to run first is the transitive closure of the operand edges, so it is a strict order
that goes with that of the places.  There is a set for every place, and all sets have the same
number of words, so nothing is looked up beyond their ends. -/
theorem ofGraph_decides_ancestry (graph : Graph) :
    (∀ earlier later, (ofGraph graph).happensBefore earlier later = true ↔
      Relation.TransGen (fun p q ↦ p ∈ graph.inputPositions q) earlier later) ∧
    IsStrictOrder Nat (fun earlier later ↦ (ofGraph graph).happensBefore earlier later = true) ∧
    (∀ earlier later, (ofGraph graph).happensBefore earlier later = true → earlier < later) ∧
    (ofGraph graph).ancestors.map List.length =
      List.replicate graph.size (ofGraph graph).words := by
  have hlt : ∀ earlier later, (ofGraph graph).happensBefore earlier later = true →
      earlier < later := fun _ _ h ↦ (happensBefore_iff.1 h).lt
  refine ⟨fun _ _ ↦ happensBefore_iff, ?_, hlt, ?_⟩
  · have hirrefl : ∀ p, ¬ (ofGraph graph).happensBefore p p = true :=
      fun p h ↦ Nat.lt_irrefl p (hlt p p h)
    have htrans : ∀ p q r, (ofGraph graph).happensBefore p q = true →
        (ofGraph graph).happensBefore q r = true → (ofGraph graph).happensBefore p r = true :=
      fun _ _ _ h h' ↦
        happensBefore_iff.2 ((happensBefore_iff.1 h).trans (happensBefore_iff.1 h'))
    exact { irrefl := hirrefl, trans := htrans }
  · refine List.eq_replicate_iff.2 ⟨by rw [List.length_map, length_ancestors], fun words h ↦ ?_⟩
    obtain ⟨set, hset, rfl⟩ := List.mem_map.1 h
    exact length_of_mem_ancestors hset

/-- A parameter and `count` negations, each one of the result in front of it. -/
def chainNodes (count : Nat) : List Node :=
  ⟨⟨0⟩, .parameter, [], [.ofDims .f32 [1]]⟩ :: (List.range count).map fun place ↦
    ⟨⟨.ofNat (place + 1)⟩, .unary .neg, [⟨.ofNat place⟩], [.ofDims .f32 [1]]⟩

/-- A chain that is one place longer than a word. -/
def chainGraph : Graph where
  nodes := chainNodes 64
  outputs := [⟨64⟩]
  valid := by decide +kernel

/-- The last place of the first word comes before the first place of the second one. -/
theorem ofGraph_decides_ancestry_chainGraph :
    (ofGraph chainGraph).happensBefore 63 64 = true ∧ 63 < 64 :=
  have hbefore : (ofGraph chainGraph).happensBefore 63 64 = true := by decide +kernel
  ⟨hbefore, (ofGraph_decides_ancestry chainGraph).2.2.1 63 64 hbefore⟩

end Reachability

end TensorEngine
