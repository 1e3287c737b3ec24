import TensorEngine.Artifact.Store

/-!
# What a store answers

A store answers what was put into it last.  Asking for an artifact may move it into memory, which
changes no answer.
-/

namespace TensorEngine

variable {key other : UInt64}

private theorem lookup_cons_eq {α : Type} (a : α) (entries : List (UInt64 × α)) :
    List.lookup other ((key, a) :: entries) =
      if other = key then some a else entries.lookup other := by
  rw [List.lookup_cons]
  by_cases h : other = key
  · rw [if_pos h, beq_iff_eq.2 h]
  · rw [if_neg h, beq_eq_false_iff_ne.2 h]

private theorem lookup_filter_ne {α : Type} (h : other ≠ key) (entries : List (UInt64 × α)) :
    (entries.filter (·.1 ≠ key)).lookup other = entries.lookup other := by
  induction entries with
  | nil => rfl
  | cons entry rest ih =>
    obtain ⟨first, old⟩ := entry
    rw [List.filter_cons, lookup_cons_eq]
    by_cases hfirst : first = key
    · rw [if_neg (by simpa using hfirst), ih, if_neg (hfirst ▸ h)]
    · rw [if_pos (by simpa using hfirst), lookup_cons_eq, ih]

/-- Files that were written are read back, and all others stay. -/
theorem ArtifactDirectory.lookup_writeFiles (key other : UInt64) (bytes : Bytes)
    (files : List (UInt64 × Bytes)) : (writeFiles key bytes files).lookup other =
      if other = key then some bytes else files.lookup other := by
  induction files with
  | nil => exact lookup_cons_eq bytes []
  | cons file rest ih =>
    obtain ⟨first, old⟩ := file
    unfold writeFiles
    by_cases hfirst : key = first
    · subst hfirst
      rw [if_pos rfl, lookup_cons_eq, lookup_cons_eq]
      split <;> rfl
    · rw [if_neg hfirst]
      split
      · exact lookup_cons_eq bytes _
      · rw [lookup_cons_eq, lookup_cons_eq, ih]
        by_cases h : other = first
        · rw [if_pos h, if_neg (h ▸ Ne.symm hfirst), if_pos h]
        · rw [if_neg h, if_neg h]

namespace ArtifactStore

variable {store : ArtifactStore} {blob : ArtifactBlob}

def fromFile? (store : ArtifactStore) (key : UInt64) : Option ArtifactBlob := do
  let bytes ← (← store.directory).read? key
  (ArtifactBlob.ofBytes? bytes).toOption

/-- Memory is looked at first, and what is found in a file is kept in memory. -/
theorem get_eq (store : ArtifactStore) (key : UInt64) : store.get key =
    match store.entries.lookup key, store.fromFile? key with
    | some blob, _ => (some blob, store)
    | none, some blob => (some blob, store.remember key blob)
    | none, none => (none, store) := by
  unfold get
  cases store.entries.lookup key with
  | some blob => rfl
  | none =>
    simp only
    rw [← fromFile?]
    cases store.fromFile? key <;> rfl

theorem fst_get (store : ArtifactStore) (key : UInt64) :
    (store.get key).1 = (store.entries.lookup key).or (store.fromFile? key) := by
  rw [get_eq]
  cases store.entries.lookup key with
  | some blob => rfl
  | none => cases store.fromFile? key <;> rfl

theorem lookup_remember (store : ArtifactStore) (key other : UInt64) (blob : ArtifactBlob) :
    (store.remember key blob).entries.lookup other =
      if other = key then some blob else store.entries.lookup other := by
  rw [remember, lookup_cons_eq]
  by_cases h : other = key
  · rw [if_pos h, if_pos h]
  · rw [if_neg h, if_neg h, lookup_filter_ne h]

/-- Asking for an artifact changes no answer. -/
theorem get_get (store : ArtifactStore) (key other : UInt64) :
    ((store.get key).2.get other).1 = (store.get other).1 := by
  rw [get_eq store key]
  split
  · rfl
  · rename_i blob hentry hfile
    have hsame : (store.remember key blob).fromFile? other = store.fromFile? other := rfl
    rw [fst_get, fst_get, lookup_remember, hsame]
    by_cases h : other = key
    · rw [if_pos h, h, hentry, hfile]
      rfl
    · rw [if_neg h]
  · rfl

/-- A store answers what was put into it last. -/
theorem get_put (store : ArtifactStore) (key other : UInt64) (blob : ArtifactBlob) :
    ((store.put key blob).get other).1 =
      if other = key then some blob else (store.get other).1 := by
  have hentries : (store.put key blob).entries.lookup other =
      if other = key then some blob else store.entries.lookup other :=
    store.lookup_remember key other blob
  rw [fst_get, fst_get, hentries]
  by_cases h : other = key
  · rw [if_pos h, if_pos h]
    rfl
  · have hfile : (store.put key blob).fromFile? other = store.fromFile? other := by
      unfold fromFile? put
      cases hdirectory : store.directory with
      | none => simp [remember, hdirectory]
      | some directory =>
        simp [remember, hdirectory, ArtifactDirectory.read?, ArtifactDirectory.write,
          ArtifactDirectory.lookup_writeFiles, h]
    rw [if_neg h, if_neg h, hfile]

end ArtifactStore

end TensorEngine
