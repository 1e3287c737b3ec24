import TensorEngine.Proofs.Instance.Finalizing

/-!
# What payloads stand for

A payload is taken over when it decodes and names the kernel of the implementation.  The form then
has the extents of the payload, and so has the implementation.  A parallel implementation goes by
the plan that was shared first for the numbers in the payload.  Nothing is derived anew: whether
the extents are those of some run of the operation, and whether the numbers of a plan are those of
the extents, is not looked at.
-/

namespace TensorEngine

open Wire

variable {payload : Bytes} {form : FinalizedForm} {node : Node}

theorem ReferenceImplementation.deserialize_eq_ok_iff {impl impl' : ReferenceImplementation} :
    impl.deserialize payload = (.ok form, impl') ↔ ∃ shapes,
      decode payload = .ok (impl.kernel, shapes) ∧ form = impl.form shapes ∧
        impl' = { impl with shapes := some shapes } := by
  unfold deserialize
  constructor
  · intro h
    split at h
    · exact absurd (Prod.mk.inj h).1 error_ne_ok
    · rename_i kernel shapes hdecode
      split at h
      · exact absurd (Prod.mk.inj h).1 error_ne_ok
      · rename_i hkernel
        obtain ⟨hform, rfl⟩ := Prod.mk.inj h
        exact ⟨shapes, not_not.1 hkernel ▸ hdecode, (Except.ok.inj hform).symm, rfl⟩
  · rintro ⟨shapes, hdecode, rfl, rfl⟩
    simp [hdecode]

theorem ParallelImplementation.deserialize_eq_ok_iff {impl impl' : ParallelImplementation}
    {table table' : PlanTable} :
    impl.deserialize payload table = (.ok form, impl', table') ↔ ∃ plan shapes,
      decode payload = .ok (plan, shapes) ∧ impl.kernel = some plan.kernel ∧
        form = impl.form (table.adopt plan).1 shapes ∧
        impl' = { impl with compiled := some ((table.adopt plan).1, shapes) } ∧
        table' = (table.adopt plan).2 := by
  unfold deserialize
  constructor
  · intro h
    split at h
    · exact absurd (Prod.mk.inj h).1 error_ne_ok
    · rename_i plan shapes hdecode
      split at h
      · exact absurd (Prod.mk.inj h).1 error_ne_ok
      · rename_i hkernel
        obtain ⟨hform, himpl⟩ := Prod.mk.inj h
        obtain ⟨rfl, rfl⟩ := Prod.mk.inj himpl
        exact ⟨plan, shapes, hdecode, (not_not.1 hkernel).symm, (Except.ok.inj hform).symm, rfl,
          rfl⟩
  · rintro ⟨plan, shapes, hdecode, hkernel, rfl, rfl, rfl⟩
    simp [hdecode, hkernel]

theorem GemmImplementation.deserialize_eq_ok_iff {impl impl' : GemmImplementation} :
    impl.deserialize payload = (.ok form, impl') ↔ ∃ plan shapes,
      decode payload = .ok (plan, shapes) ∧ impl.spec = some plan.spec ∧
        form = GemmImplementation.form plan shapes ∧
        impl' = { impl with plan := some (plan, shapes) } := by
  unfold deserialize
  constructor
  · intro h
    split at h
    · exact absurd (Prod.mk.inj h).1 error_ne_ok
    · rename_i plan shapes hdecode
      split at h
      · exact absurd (Prod.mk.inj h).1 error_ne_ok
      · rename_i hspec
        obtain ⟨hform, rfl⟩ := Prod.mk.inj h
        exact ⟨plan, shapes, hdecode, (not_not.1 hspec).symm, (Except.ok.inj hform).symm, rfl⟩
  · rintro ⟨plan, shapes, hdecode, hspec, rfl, rfl⟩
    simp [hdecode, hspec]

namespace CatalogueImplementation

variable {env env' : Environment} {impl : CatalogueImplementation}
  {descriptor : Descriptor CatalogueImplementation}

theorem instantiate_reference (h : descriptor ∈ referenceDescriptors) (node : Node) :
    descriptor.backend = .reference ∧
      descriptor.instantiate node = .reference (.ofNode node) := by
  obtain ⟨reference, hmem, rfl⟩ := List.mem_map.1 h
  obtain ⟨kind, _, rfl⟩ := List.mem_map.1 hmem
  exact ⟨rfl, rfl⟩

theorem instantiate_parallel (h : descriptor ∈ parallelDescriptors) (node : Node) :
    descriptor.backend = .genericKernel ∧
      descriptor.instantiate node = .parallel (.ofNode node) := by
  obtain ⟨parallel, hmem, rfl⟩ := List.mem_map.1 h
  obtain ⟨kind, _, rfl⟩ := List.mem_map.1 hmem
  exact ⟨rfl, rfl⟩

theorem deserialize_reference_eq_ok_iff {reference : ReferenceImplementation} :
    Implementation.deserialize (CatalogueImplementation.reference reference) payload env =
        (.ok form, impl, env') ↔ ∃ reference', reference.deserialize payload =
          (.ok form, reference') ∧ impl = .reference reference' ∧ env' = env :=
  pureAnswer_eq_iff

theorem deserialize_parallel_eq_ok_iff {parallel : ParallelImplementation} :
    Implementation.deserialize (CatalogueImplementation.parallel parallel) payload env =
        (.ok form, impl, env') ↔ ∃ parallel' table, parallel.deserialize payload env.plans =
          (.ok form, parallel', table) ∧ impl = .parallel parallel' ∧
          env' = { env with plans := table } :=
  planAnswer_eq_iff

theorem deserialize_gemm_eq_ok_iff {gemm : GemmImplementation} :
    Implementation.deserialize (CatalogueImplementation.gemm gemm) payload env =
        (.ok form, impl, env') ↔ ∃ gemm', gemm.deserialize payload = (.ok form, gemm') ∧
          impl = .gemm gemm' ∧ env' = env :=
  pureAnswer_eq_iff

end CatalogueImplementation

end TensorEngine
