import TensorEngine.Instance.Specialization

/-!
# What the cache holds

Looking at the cache answers one of its entries and moves it to the front; keeping a form adds it in
front.  So what holds of every form that is kept holds of every form that is answered.
-/

namespace TensorEngine

variable {ι ω : Type}

namespace ImplementationCache

variable {cache : ImplementationCache ι} {key key' : CacheKey}
  {entry entry' : FinalizedImplementation ι}

theorem mem_entries_put (h : (key', entry') ∈ (cache.put key entry).entries) :
    (key', entry') = (key, entry) ∨ (key', entry') ∈ cache.entries := by
  rcases List.mem_cons.1 (List.mem_of_mem_take h) with h | h
  · exact .inl h
  · exact .inr (List.mem_filter.1 h).1

theorem mem_entries_of_find? (h : cache.find? key = some entry) :
    (key, entry) ∈ cache.entries := by
  obtain ⟨front, back, hentries, _⟩ := List.lookup_eq_some_iff.1 h
  rw [hentries]
  exact List.mem_append_right _ (List.mem_cons_self ..)

/-- Using an entry keeps the entries, and answers one of them. -/
theorem get_spec (cache : ImplementationCache ι) (key : CacheKey) :
    (∀ entry, entry ∈ (cache.get key).2.entries → entry ∈ cache.entries) ∧
      ∀ hit, (cache.get key).1 = some hit → (key, hit) ∈ cache.entries := by
  unfold get
  cases hfind : cache.find? key with
  | none => exact ⟨fun _ h ↦ h, nofun⟩
  | some entry =>
    have hmem := mem_entries_of_find? hfind
    refine ⟨fun ⟨key', entry'⟩ hput ↦ ?_, fun hit hhit ↦ Option.some.inj hhit ▸ hmem⟩
    rcases mem_entries_put hput with heq | hput
    · exact heq ▸ hmem
    · exact hput

end ImplementationCache

namespace Workspace

variable {workspace : Workspace ι ω} {P : CacheKey → FinalizedImplementation ι → Prop}
  {key : CacheKey} {entry : FinalizedImplementation ι}

/-- What holds of all entries of the cache, if there is one. -/
def Keeps (workspace : Workspace ι ω) (P : CacheKey → FinalizedImplementation ι → Prop) : Prop :=
  ∀ cache, workspace.cache = some cache → ∀ key entry, (key, entry) ∈ cache.entries → P key entry

/-- Nothing is in a new cache. -/
theorem keeps_ofCapacity? (capacity : Nat) (session : Session ω) :
    (⟨ImplementationCache.ofCapacity? capacity, session⟩ : Workspace ι ω).Keeps P := by
  intro cache hcache key entry hmem
  unfold ImplementationCache.ofCapacity? at hcache
  split at hcache
  · cases hcache
  · obtain rfl := Option.some.inj hcache
    exact absurd hmem List.not_mem_nil

end Workspace

end TensorEngine
