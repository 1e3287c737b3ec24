import TensorEngine.Proofs.Execution.Twins
import TensorEngine.Proofs.Program.Refinement

/-!
# Earlier executions leave no trace

Slots are never cleared, and they stay as large as any execution made them.  Nevertheless two
programs that went through different executions answer the next one alike: every element that an
execution reads was written by it, or belongs to a constant, and no execution writes the constants.
-/

namespace TensorEngine

open CatalogueImplementation

variable {graph : Graph} {plan : MemoryPlan} {a b c : MemoryPool}

theorem SameConstants.refl (a : MemoryPool) : SameConstants graph plan a a :=
  fun _ _ _ _ ↦ rfl

theorem SameConstants.symm (h : SameConstants graph plan a b) : SameConstants graph plan b a :=
  fun p node hnode hkind ↦ (h p node hnode hkind).symm

theorem SameConstants.trans (h : SameConstants graph plan a b) (h' : SameConstants graph plan b c) :
    SameConstants graph plan a c :=
  fun p node hnode hkind ↦ (h p node hnode hkind).trans (h' p node hnode hkind)

namespace Program

section

variable {program a b : Program CatalogueImplementation} {bindings : Bindings}
  {session session' : Session Environment}

/-! ## Constants between executions -/

/-- An output is read from what its slot shows. -/
theorem readOutput_of_sameView {streams p : Nat} {node : Node} {dims : Dims}
    {extents : List (Option Dims)} (hgraph : b.graph = a.graph) (hplan : b.plan = a.plan)
    (hsafe : a.plan.Safe a.graph streams) (hnode : a.graph.nodes[p]? = some node)
    (hextents : extents[p]? = some (some dims))
    (h : a.pool.SameView b.pool (a.plan.place p) dims) :
    a.readOutput extents node.id = b.readOutput extents node.id := by
  obtain ⟨data, data', hdata, hdata', hview⟩ := h
  simp only [readOutput, hgraph, hplan, Graph.position?_id hnode, hextents, Option.join_some,
    Option.getD_some, hsafe.slotOf_id hnode, ok_bind, MemoryPool.read_eq_ok_iff.2 hdata,
    MemoryPool.read_eq_ok_iff.2 hdata', Except.mapError]
  cases hcount : elementCount? dims with
  | none => rfl
  | some count => simp only [hview count hcount]

/-- Two programs whose slots agree on the constants answer an execution alike, unless memory is
refused to one of them. -/
theorem Fit.execute_eq (ha : a.Fit) (hb : b.Fit) (hgraph : b.graph = a.graph)
    (hplan : b.plan = a.plan) (hpoison : a.poison = none) (hpoison' : b.poison = none)
    (htrusts : a.registry.Trusts session.environment)
    (htrusts' : b.registry.Trusts session'.environment)
    (hconstants : SameConstants a.graph a.plan a.pool b.pool)
    (hcovered : a.graph.CoveredBy bindings) :
    let answer := (a.execute bindings never session).1
    let answer' := (b.execute bindings never session').1
    answer = answer' ∨ Refused answer ∨ Refused answer' := by
  have hcheck := checkBindings_congr hgraph bindings
  cases hbindings : a.checkBindings bindings with
  | error error =>
    refine .inl ?_
    rw [hbindings] at hcheck
    simp only [Program.execute, hpoison, hpoison', hbindings, hcheck]
  | ok _ =>
    rw [hbindings] at hcheck
    obtain ⟨_, _, hanswer⟩ := ha.execute_never hpoison htrusts hbindings
    obtain ⟨_, _, hanswer'⟩ := hb.execute_never hpoison' htrusts' hcheck
    have hdeals := StreamSchedule.deals_ofGraph a.graph a.config.streamCount
    have horder := (StreamSchedule.allows_range hdeals).admissible hdeals ha.safe
    have hslotRun : b.slotRun bindings = Slots.visitAll (a.context bindings) a.plan
        ⟨b.pool, List.replicate a.graph.size none⟩ (List.range a.graph.size) := by
      rw [slotRun, slots, hgraph, hplan]
      exact Slots.visitAll_congr (b.context bindings) (a.context bindings) hgraph rfl
    have hruns : Slots.VisitAlike a.graph a.plan ((List.range a.graph.size).reverse ++ [])
        (a.slotRun bindings) (b.slotRun bindings) :=
      hslotRun ▸ Slots.visitAll_twins (a.context bindings) ha.safe hcovered horder
        (Slots.twins_nil (ha.runnable hpoison session htrusts).typed
          (hplan ▸ (hb.runnable hpoison' session' htrusts').typed) hconstants)
    simp only
    rw [hanswer, hanswer']
    generalize a.slotRun bindings = run at hruns ⊢
    generalize b.slotRun bindings = run' at hruns ⊢
    obtain ⟨result, slots⟩ := run
    obtain ⟨result', slots'⟩ := run'
    rcases hruns with ⟨requested, slot, reason, hrefused⟩ | ⟨requested, slot, reason, hrefused⟩ |
      ⟨hresult, htwins⟩
    · obtain rfl : result = _ := hrefused
      exact .inr (.inl ⟨requested, slot, reason, rfl⟩)
    · obtain rfl : result' = _ := hrefused
      exact .inr (.inr ⟨requested, slot, reason, rfl⟩)
    · obtain rfl : result = result' := hresult
      cases result with
      | error error => exact .inl rfl
      | ok _ =>
        refine .inl ?_
        have htwins : Slots.Twins a.graph a.plan _ slots slots' := htwins rfl
        simp only [Except.bind, hgraph, ← htwins.extents_eq]
        refine mapM_congr fun id hid ↦ ?_
        obtain ⟨p, node, hnode, rfl⟩ := Graph.exists_of_mem_outputs hid
        obtain ⟨dims, hextents, hview⟩ := htwins.output ha.safe
          (fun p hp ↦ by simpa using hp) hnode hid
        exact readOutput_of_sameView (a := a.withPool slots.pool) (b := b.withPool slots'.pool)
          hgraph hplan ha.safe hnode hextents hview

end

/-- A new program answers a call in one way, and in another after some executions. -/
def Remembers (graph : Graph) (config : RuntimeConfig) (bindings : Bindings)
    (fresh later : Except RuntimeError (List HostTensor)) : Prop :=
  ∃ program store after program',
    build graph referenceRegistry openDevice config none freshSession =
      (.ok program, store, after) ∧
    program.Reaches Environment program' ∧ program.poison = none ∧ program'.poison = none ∧
    (program.execute bindings never freshSession).1 = fresh ∧
    (program'.execute bindings never freshSession).1 = later

/-- The given elements for four numbers. -/
def numbers (values : Array Int32) : Bindings := fun _ ↦ some ⟨[4], .i32 values⟩

end Program

end TensorEngine
