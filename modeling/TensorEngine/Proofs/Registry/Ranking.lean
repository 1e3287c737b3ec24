import Mathlib.Data.Prod.Lex
import TensorEngine.Proofs.Registry.Selection

/-!
# The order of candidates

The candidates for a node are exactly the descriptors of its kind that the device enables and that
take its layouts, at least after a conversion.  They are tried in a fixed order: those that take the
layouts as they are before the others, then by priority, by family and by registration.  So the
first one with some property is the best one with it, whatever was tried before.
-/

namespace TensorEngine

/-! ## The first of a list -/

/-- The first item of a list with a property. -/
inductive First {α : Type} (P : α → Prop) : List α → α → Prop
  | here {a : α} {rest : List α} (h : P a) : First P (a :: rest) a
  | later {x a : α} {rest : List α} (hx : ¬P x) (h : First P rest a) : First P (x :: rest) a

namespace First

variable {α : Type} {P Q : α → Prop} {xs : List α} {a b : α}

theorem mem (h : First P xs a) : a ∈ xs := by
  induction h with
  | here => exact List.mem_cons_self
  | later _ _ ih => exact List.mem_cons_of_mem _ ih

theorem holds (h : First P xs a) : P a := by
  induction h with
  | here h => exact h
  | later _ _ ih => exact ih

theorem unique (h : First P xs a) (h' : First P xs b) : a = b := by
  induction h with
  | here h =>
    cases h' with
    | here => rfl
    | later hx => exact absurd h hx
  | later hx _ ih =>
    cases h' with
    | here h => exact absurd h hx
    | later _ h' => exact ih h'

/-- What is first with a property is first with every stronger one that it has. -/
theorem strengthen (h : First P xs a) (ha : Q a) (hQ : ∀ x, Q x → P x) : First Q xs a := by
  induction h with
  | here => exact .here ha
  | later hx _ ih => exact .later (fun hx' ↦ hx (hQ _ hx')) (ih ha)

/-- What is first with a weaker property may be looked at first. -/
theorem of_cons (h : First P (a :: xs) b) (ha : First Q xs a) (hQ : ∀ x, P x → Q x) :
    First P xs b := by
  cases h with
  | here h => exact ha.strengthen h hQ
  | later _ h => exact h

/-- Items without the property may be left out. -/
theorem of_filter {p : α → Bool} (h : First P (xs.filter p) a) (hp : ∀ x, P x → p x = true) :
    First P xs a := by
  induction xs with
  | nil => exact h
  | cons x xs ih =>
    by_cases hx : p x = true
    · rw [List.filter_cons_of_pos hx] at h
      cases h with
      | here h => exact .here h
      | later hx' h => exact .later hx' (ih h)
    · rw [List.filter_cons_of_neg hx] at h
      exact .later (fun hx' ↦ hx (hp x hx')) (ih h)

/-- In a list that is in order, what is first comes before all others. -/
theorem rel {R : α → α → Prop} (h : First P xs a) (hxs : xs.Pairwise R) (hmem : b ∈ xs)
    (hb : P b) : a = b ∨ R a b := by
  induction h with
  | here =>
    rcases List.mem_cons.1 hmem with rfl | hmem
    · exact .inl rfl
    · exact .inr (List.rel_of_pairwise_cons hxs hmem)
  | later hx _ ih =>
    rcases List.mem_cons.1 hmem with rfl | hmem
    · exact absurd hb hx
    · exact ih hxs.of_cons hmem

end First

/-- What a search may answer: something that stands for the first item with a property, or nothing
when no item has it. -/
inductive Finds {α β : Type} (P : α → Prop) (item : β → α) (xs : List α) : Option β → Prop
  | found {b : β} (h : First P xs (item b)) : Finds P item xs (some b)
  | nothing (h : ∀ x ∈ xs, ¬P x) : Finds P item xs none

/-- A search goes on behind an item without the property. -/
theorem Finds.later {α β : Type} {P : α → Prop} {item : β → α} {x : α} {xs : List α}
    {answer : Option β} (hx : ¬P x) (h : Finds P item xs answer) :
    Finds P item (x :: xs) answer := by
  cases h with
  | found h => exact .found (.later hx h)
  | nothing h => exact .nothing (List.forall_mem_cons.2 ⟨hx, h⟩)

/-! ## Candidates -/

variable {ι : Type} {registry : Registry ι} {device : DeviceCaps} {node : Node}
  {inputs : List Layout} {selection other : Selection} {descriptor : Descriptor ι}
  {P Q : Descriptor ι → Prop}

/-- What decides between descriptors that take the layouts of a node alike: a higher priority, then
the family, then who was registered first. -/
def Descriptor.precedence (descriptor : Descriptor ι) (id : DescriptorId) :
    Int ×ₗ Nat ×ₗ DescriptorId :=
  toLex (-descriptor.priority, toLex (descriptor.backend.rank, id))

/-- What decides between candidates: whether a conversion is needed comes before all else. -/
def Selection.rank (selection : Selection) (descriptor : Descriptor ι) :
    Bool ×ₗ Int ×ₗ Nat ×ₗ DescriptorId :=
  toLex (selection.requiresConversion, descriptor.precedence selection.descriptor)

namespace Registry

/-- A candidate for a node: its descriptor is selected, and takes all layouts, at least after a
conversion. -/
structure Candidate (registry : Registry ι) (node : Node) (inputs : List Layout)
    (device : DeviceCaps) (selection : Selection) (descriptor : Descriptor ι) : Prop
    extends registry.Selects node inputs device selection descriptor where
  takes : (inputs ++ node.outputs).all descriptor.matchesWithConversion = true

/-- The descriptor of a selection has a property. -/
def Meets (registry : Registry ι) (P : Descriptor ι → Prop) (selection : Selection) : Prop :=
  ∃ descriptor ∈ registry.descriptor? selection.descriptor, P descriptor

/-- The best candidate with a property: every other one with it ranks behind. -/
def Best (registry : Registry ι) (node : Node) (inputs : List Layout) (device : DeviceCaps)
    (P : Descriptor ι → Prop) (selection : Selection) : Prop :=
  ∃ descriptor, registry.Candidate node inputs device selection descriptor ∧ P descriptor ∧
    ∀ other descriptor', registry.Candidate node inputs device other descriptor' →
      P descriptor' → selection.rank descriptor ≤ other.rank descriptor'

theorem meets_iff (h : registry.descriptor? selection.descriptor = some descriptor) :
    registry.Meets P selection ↔ P descriptor := by
  rw [Meets, h]
  exact ⟨fun ⟨_, hmem, hP⟩ ↦ Option.some.inj hmem ▸ hP, fun hP ↦ ⟨descriptor, rfl, hP⟩⟩

theorem not_meets (h : registry.descriptor? selection.descriptor = none) :
    ¬registry.Meets P selection := by
  rintro ⟨_, hmem, _⟩
  rw [h] at hmem
  cases hmem

theorem Meets.mono (h : registry.Meets P selection)
    (hQ : ∀ descriptor, P descriptor → Q descriptor) : registry.Meets Q selection := by
  obtain ⟨descriptor, hmem, hP⟩ := h
  exact ⟨descriptor, hmem, hQ descriptor hP⟩

/-- The candidates are the selections. -/
theorem mem_selections_iff : selection ∈ registry.selections node inputs device ↔
    ∃ descriptor, registry.Candidate node inputs device selection descriptor := by
  constructor
  · intro h
    obtain ⟨descriptor, hselects⟩ := exists_selects h
    refine ⟨descriptor, hselects, ?_⟩
    unfold selections at h
    simp only [List.partition_eq_filter_filter] at h
    have hsame : ∀ {other : Descriptor ι}, (other, selection.descriptor) ∈
        registry.enabled node device → other = descriptor := fun hother ↦
      Option.some.inj ((mem_enabled_iff.1 hother).1.symm.trans hselects.descriptor_eq)
    rcases List.mem_append.1 h with h | h <;> obtain ⟨id, hid, rfl⟩ := List.mem_map.1 h <;>
      obtain ⟨other, hmem⟩ := mem_ranked_iff.1 hid <;>
      obtain ⟨hmem, htakes⟩ := List.mem_filter.1 hmem
    · obtain rfl := hsame hmem
      refine List.all_eq_true.2 fun layout hlayout ↦ ?_
      rw [Descriptor.matchesWithConversion, List.all_eq_true.1 htakes layout hlayout, Bool.true_or]
    · obtain rfl := hsame (List.mem_filter.1 hmem).1
      exact htakes
  · rintro ⟨descriptor, ⟨hdescriptor, hop, hdevice, hconversion⟩, htakes⟩
    have henabled : (descriptor, selection.descriptor) ∈ registry.enabled node device :=
      mem_enabled_iff.2 ⟨hdescriptor, hop, hdevice⟩
    unfold selections
    simp only [List.partition_eq_filter_filter]
    refine List.mem_append.2 ?_
    cases hexact : (inputs ++ node.outputs).all descriptor.matchesExactly with
    | true =>
      rw [Descriptor.takesExactly, hexact] at hconversion
      refine .inl (List.mem_map.2 ⟨selection.descriptor, mem_ranked_iff.2 ⟨descriptor,
        List.mem_filter.2 ⟨henabled, hexact⟩⟩, ?_⟩)
      rw [← Bool.not_true, ← hconversion]
    | false =>
      rw [Descriptor.takesExactly, hexact] at hconversion
      refine .inr (List.mem_map.2 ⟨selection.descriptor, mem_ranked_iff.2 ⟨descriptor,
        List.mem_filter.2 ⟨List.mem_filter.2 ⟨henabled, ?_⟩, htakes⟩⟩, ?_⟩)
      · rw [Function.comp_apply, hexact, Bool.not_false]
      · rw [← Bool.not_false, ← hconversion]

/-- Whether a candidate needs a conversion depends on its descriptor only. -/
theorem selection_eq (h : selection ∈ registry.selections node inputs device)
    (h' : other ∈ registry.selections node inputs device)
    (hsame : selection.descriptor = other.descriptor) : selection = other := by
  obtain ⟨descriptor, hselects⟩ := exists_selects h
  obtain ⟨descriptor', hselects'⟩ := exists_selects h'
  obtain rfl : descriptor = descriptor' := Option.some.inj
    (hselects.descriptor_eq.symm.trans (hsame ▸ hselects'.descriptor_eq))
  obtain ⟨id, conversion⟩ := selection
  obtain ⟨id', conversion'⟩ := other
  obtain rfl : id = id' := hsame
  exact congrArg (Selection.mk id)
    (hselects.requiresConversion_eq.trans hselects'.requiresConversion_eq.symm)

/-! ## The order -/

/-- One descriptor is tried before another when it takes precedence. -/
theorem ranksBefore_iff {a b : Descriptor ι × DescriptorId} :
    ranksBefore a b = true ↔ a.1.precedence a.2 ≤ b.1.precedence b.2 := by
  simp only [ranksBefore, Descriptor.precedence, Prod.Lex.toLex_le_toLex, Bool.or_eq_true,
    Bool.and_eq_true, decide_eq_true_eq, Int.neg_lt_neg_iff, Int.neg_inj]

/-- Descriptors are ranked by precedence. -/
theorem pairwise_ranked (descriptors : List (Descriptor ι × DescriptorId)) :
    (descriptors.mergeSort ranksBefore).Pairwise fun a b ↦
      a.1.precedence a.2 ≤ b.1.precedence b.2 := by
  refine (List.pairwise_mergeSort (fun a b c hab hbc ↦ ?_) (fun a b ↦ ?_) descriptors).imp
    fun h ↦ ranksBefore_iff.1 h
  · exact ranksBefore_iff.2 (le_trans (ranksBefore_iff.1 hab) (ranksBefore_iff.1 hbc))
  · simp only [Bool.or_eq_true, ranksBefore_iff]
    exact le_total _ _

/-- Ranked descriptors that take the layouts alike are in order. -/
private theorem pairwise_map_ranked {descriptors : List (Descriptor ι × DescriptorId)}
    (hmem : ∀ entry ∈ descriptors, registry.descriptor? entry.2 = some entry.1)
    (conversion : Bool) : ((ranked descriptors).map (⟨·, conversion⟩ : _ → Selection)).Pairwise
      fun a b ↦ ∀ descriptor descriptor', registry.descriptor? a.descriptor = some descriptor →
        registry.descriptor? b.descriptor = some descriptor' →
        a.rank descriptor ≤ b.rank descriptor' := by
  simp only [ranked, List.pairwise_map]
  refine (pairwise_ranked descriptors).imp_of_mem fun {a b} ha hb hle _ _ h h' ↦ ?_
  rw [hmem a (List.mem_mergeSort.1 ha), Option.some.injEq] at h
  rw [hmem b (List.mem_mergeSort.1 hb), Option.some.injEq] at h'
  rw [Selection.rank, Selection.rank, Prod.Lex.toLex_le_toLex, ← h, ← h']
  exact .inr ⟨rfl, hle⟩

/-- The selections are in order. -/
theorem pairwise_selections (registry : Registry ι) (node : Node) (inputs : List Layout)
    (device : DeviceCaps) : (registry.selections node inputs device).Pairwise fun a b ↦
      ∀ descriptor descriptor', registry.descriptor? a.descriptor = some descriptor →
        registry.descriptor? b.descriptor = some descriptor' →
        a.rank descriptor ≤ b.rank descriptor' := by
  have henabled : ∀ entry ∈ registry.enabled node device,
      registry.descriptor? entry.2 = some entry.1 := fun _ h ↦ (mem_enabled_iff.1 h).1
  unfold selections
  simp only [List.partition_eq_filter_filter]
  refine List.pairwise_append.2 ⟨pairwise_map_ranked (fun _ h ↦ henabled _ ?_) false,
    pairwise_map_ranked (fun _ h ↦ henabled _ ?_) true, fun a ha b hb _ _ _ _ ↦ ?_⟩
  · exact (List.mem_filter.1 h).1
  · exact (List.mem_filter.1 (List.mem_filter.1 h).1).1
  · obtain ⟨_, _, rfl⟩ := List.mem_map.1 ha
    obtain ⟨_, _, rfl⟩ := List.mem_map.1 hb
    exact Prod.Lex.toLex_le_toLex.2 (.inl Bool.false_lt_true)

/-- The first selection with a property is the best one. -/
theorem best_of_first
    (h : First (registry.Meets P) (registry.selections node inputs device) selection) :
    registry.Best node inputs device P selection := by
  obtain ⟨descriptor, hcandidate⟩ := mem_selections_iff.1 h.mem
  refine ⟨descriptor, hcandidate, (meets_iff hcandidate.descriptor_eq).1 h.holds,
    fun other descriptor' hother hP ↦ ?_⟩
  rcases h.rel (pairwise_selections registry node inputs device)
    (mem_selections_iff.2 ⟨descriptor', hother⟩) ((meets_iff hother.descriptor_eq).2 hP) with
    rfl | hle
  · rw [Option.some.inj (hcandidate.descriptor_eq.symm.trans hother.descriptor_eq)]
  · exact hle descriptor descriptor' hcandidate.descriptor_eq hother.descriptor_eq

end Registry

end TensorEngine
