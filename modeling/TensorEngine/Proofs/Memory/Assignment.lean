import TensorEngine.Memory.Plan
import Mathlib.Data.List.Induction

/-!
# Handing out slots

Groups get their slots one after the other.  What one step keeps is that every slot remembers its
groups: it has their element type, it is busy until the last of them is over, and it knows every
place that touches one of them.  So a group that takes over a slot comes after all groups in it,
and two groups in one slot are always handed over from the earlier to the later one.
-/

namespace TensorEngine.SlotUse

variable {reach : Option Reachability} {uses : List SlotUse} {use : SlotUse}
  {group earlier later : AliasGroup} {placed : List (AliasGroup × Nat)} {s : Nat}

/-- A slot remembers a group that is in it. -/
structure Remembers (use : SlotUse) (s : Nat) (group : AliasGroup) : Prop where
  id_eq : use.slot.id = s
  dtype_eq : use.slot.dtype = group.dtype
  /-- The slot is busy while the group is alive. -/
  finish_le : group.range.finish ≤ use.finish
  /-- The slot knows the places that touch the group. -/
  accessors_subset : group.accessors ⊆ use.accessors
  /-- The slot is kept apart when the group is. -/
  isDedicated : group.usage.isDedicated = true → use.slot.usage.isDedicated = true

/-- A slot goes from one group to a later one. -/
structure HandsOver (reach : Option Reachability) (earlier later : AliasGroup) : Prop where
  /-- Neither group keeps the slot to itself. -/
  shared : earlier.usage.isDedicated = false ∧ later.usage.isDedicated = false
  finish_lt : earlier.range.finish < later.range.start
  /-- On several streams, all that touches the earlier group runs before the later one starts. -/
  happensBefore : ∀ r, reach = some r →
    ∀ e ∈ earlier.accessors, r.happensBefore e later.root = true

/-- The groups that were placed so far are remembered by their slots, and groups in one slot are
handed over. -/
structure Assigned (reach : Option Reachability) (uses : List SlotUse)
    (placed : List (AliasGroup × Nat)) : Prop where
  remembers : ∀ {group : AliasGroup} {s : Nat}, (group, s) ∈ placed →
    ∃ use, uses[s]? = some use ∧ use.Remembers s group
  id_eq : ∀ {s : Nat} {use : SlotUse}, uses[s]? = some use → use.slot.id = s
  /-- Groups in one slot follow each other. -/
  handsOver : placed.Pairwise fun a b ↦ a.2 = b.2 → HandsOver reach a.1 b.1

theorem remembers_fresh : (fresh s group).Remembers s group :=
  ⟨rfl, rfl, Nat.le_refl _, fun _ h ↦ h, id⟩

/-- One more group in a slot; the slot has its element type. -/
theorem remembers_add_self (hid : use.slot.id = s) (hdtype : use.slot.dtype = group.dtype) :
    (use.add group).Remembers s group := by
  refine ⟨hid, hdtype, Nat.le_max_right _ _, List.subset_append_right _ _, fun h ↦ ?_⟩
  simp only [BufferUsage.isDedicated, Bool.or_eq_true] at h
  simp only [add, BufferUsage.merge, BufferUsage.isDedicated, Bool.or_eq_true]
  grind

/-- Groups that are in a slot stay remembered when one more comes in. -/
theorem Remembers.add (h : use.Remembers s earlier) : (use.add group).Remembers s earlier := by
  refine ⟨h.id_eq, h.dtype_eq, Nat.le_trans h.finish_le (Nat.le_max_left _ _),
    List.Subset.trans h.accessors_subset (List.subset_append_left _ _), fun hkept ↦ ?_⟩
  have huse := h.isDedicated hkept
  simp only [BufferUsage.isDedicated, Bool.or_eq_true] at huse
  simp only [SlotUse.add, BufferUsage.merge, BufferUsage.isDedicated, Bool.or_eq_true]
  grind

/-- A group that may take over a slot comes after every group in it. -/
theorem Remembers.handsOver (h : use.Remembers s earlier) (hkept : group.usage.isDedicated = false)
    (hadmits : admits reach group use = true) : HandsOver reach earlier group := by
  simp only [admits, Bool.and_eq_true, Bool.not_eq_true', decide_eq_true_eq] at hadmits
  obtain ⟨⟨⟨huse, _⟩, hfinish⟩, hreach⟩ := hadmits
  refine ⟨⟨?_, hkept⟩, Nat.lt_of_le_of_lt h.finish_le hfinish, ?_⟩
  · rw [← Bool.not_eq_true]
    intro hearlier
    rw [h.isDedicated hearlier] at huse
    cases huse
  · rintro r rfl e he
    exact List.all_eq_true.1 hreach e (h.accessors_subset he)

theorem assigned_nil : Assigned reach [] [] := ⟨by simp, by simp, .nil⟩

/-- A group gets a slot of its own. -/
theorem Assigned.fresh (h : Assigned reach uses placed) :
    Assigned reach (uses ++ [fresh uses.length group]) (placed ++ [(group, uses.length)]) := by
  have hlt : ∀ {other s}, (other, s) ∈ placed → s < uses.length := by
    intro other s hmem
    obtain ⟨use, huse, _⟩ := h.remembers hmem
    exact (List.getElem?_eq_some_iff.1 huse).1
  refine ⟨?_, ?_, ?_⟩
  · intro other s hmem
    rcases List.mem_append.1 hmem with hmem | hmem
    · obtain ⟨use, huse, hrem⟩ := h.remembers hmem
      exact ⟨use, by rw [List.getElem?_append_left (hlt hmem), huse], hrem⟩
    · rw [List.mem_singleton] at hmem
      cases hmem
      exact ⟨_, by simp, remembers_fresh⟩
  · intro s use huse
    rcases Nat.lt_trichotomy s uses.length with hs | rfl | hs
    · rw [List.getElem?_append_left hs] at huse
      exact h.id_eq huse
    · simp only [List.getElem?_concat_length, Option.some.injEq] at huse
      rw [← huse, SlotUse.fresh]
    · rw [List.getElem?_eq_none (by simp; omega)] at huse
      cases huse
  · refine List.pairwise_append.2 ⟨h.handsOver, List.pairwise_singleton _ _, ?_⟩
    rintro ⟨other, s⟩ hmem b hb hsame
    rw [List.mem_singleton] at hb
    subst hb
    exact absurd hsame (Nat.ne_of_lt (hlt hmem))

/-- A group takes over a slot that admits it. -/
theorem Assigned.takeOver (h : Assigned reach uses placed) (huse : uses[s]? = some use)
    (hkept : group.usage.isDedicated = false) (hadmits : admits reach group use = true) :
    Assigned reach (uses.modify s (·.add group)) (placed ++ [(group, s)]) := by
  have hadd : (uses.modify s (·.add group))[s]? = some (use.add group) := by
    rw [List.getElem?_modify_eq, huse]
    rfl
  have hother : ∀ {t}, s ≠ t → (uses.modify s (·.add group))[t]? = uses[t]? := fun hne ↦
    List.getElem?_modify_ne _ _ hne
  refine ⟨?_, ?_, ?_⟩
  · intro other t hmem
    rcases List.mem_append.1 hmem with hmem | hmem
    · obtain ⟨old, hold, hrem⟩ := h.remembers hmem
      by_cases hst : s = t
      · subst hst
        rw [huse, Option.some.injEq] at hold
        subst hold
        exact ⟨_, hadd, hrem.add⟩
      · exact ⟨old, by rw [hother hst, hold], hrem⟩
    · rw [List.mem_singleton] at hmem
      cases hmem
      simp only [admits, Bool.and_eq_true, decide_eq_true_eq] at hadmits
      exact ⟨_, hadd, remembers_add_self (h.id_eq huse) hadmits.1.1.2⟩
  · intro t old hold
    by_cases hst : s = t
    · subst hst
      rw [hadd, Option.some.injEq] at hold
      have hid : use.slot.id = s := h.id_eq huse
      rw [← hold]
      exact hid
    · rw [hother hst] at hold
      exact h.id_eq hold
  · refine List.pairwise_append.2 ⟨h.handsOver, List.pairwise_singleton _ _, ?_⟩
    rintro ⟨other, t⟩ hmem b hb hsame
    rw [List.mem_singleton] at hb
    subst hb
    simp only at hsame
    subst hsame
    obtain ⟨old, hold, hrem⟩ := h.remembers hmem
    rw [huse, Option.some.injEq] at hold
    subst hold
    exact hrem.handsOver hkept hadmits

/-- One step of the assignment. -/
theorem Assigned.assign (h : Assigned reach uses placed) :
    Assigned reach (assign reach uses group).1
      (placed ++ [(group, (assign reach uses group).2)]) := by
  unfold SlotUse.assign reusable?
  by_cases hkept : group.usage.isDedicated = true
  · simp only [hkept, if_true]
    exact h.fresh
  · rw [if_neg hkept]
    cases hfound : uses.findIdx? (admits reach group) with
    | none => exact h.fresh
    | some s =>
      obtain ⟨hs, hadmits, _⟩ := List.findIdx?_eq_some_iff_getElem.1 hfound
      exact h.takeOver (List.getElem?_eq_getElem hs) (Bool.eq_false_iff.2 hkept) hadmits

/-- All groups get slots, and groups in one slot are handed over in their order. -/
theorem exists_assigned (reach : Option Reachability) (groups : List AliasGroup) :
    ∃ placed : List (AliasGroup × Nat), placed.map Prod.fst = groups ∧
      (assignAll reach groups).2 = placed.map (fun pair ↦ (pair.1.root, pair.2)) ∧
      Assigned reach (assignAll reach groups).1 placed := by
  induction groups using List.reverseRecOn with
  | nil => exact ⟨[], rfl, rfl, assigned_nil⟩
  | append_singleton groups group ih =>
    obtain ⟨placed, hgroups, hslots, hassigned⟩ := ih
    refine ⟨placed ++ [(group, (SlotUse.assign reach (assignAll reach groups).1 group).2)],
      by simp [hgroups], ?_, ?_⟩
    · rw [assignAll, List.foldl_append]
      show (assignAll reach groups).2 ++ _ = _
      rw [hslots, List.map_append]
      rfl
    · rw [assignAll, List.foldl_append]
      exact hassigned.assign

end TensorEngine.SlotUse
