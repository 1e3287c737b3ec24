import TensorEngine.Graph.Builder
import TensorEngine.Proofs.Graph.Order
import TensorEngine.Proofs.Operation.Abstraction

/-!
# Graphs that a builder makes

A builder checks operands when it derives the layout of a result, and it never hands out a name
twice before it runs out of names.  What it appends therefore passes the check of a graph, and the
declared layouts are exactly those that the operations derive.
-/

namespace TensorEngine

variable {nodes earlier : List Node} {node : Node} {operands layouts : List Layout}

/-! ## What the check asks for -/

namespace Node

/-- A node that fits behind others passes its check there. -/
theorem check_of_fits (h : node.Fits earlier operands) : node.check earlier = .ok () := by
  have hlength : node.outputs.length = 1 := by rw [h.outputs_eq, List.length_singleton]
  simp only [check, hlength, h.length_inputs, h.operands_eq, ne_eq, not_true_eq_false, if_false,
    ok_bind]
  rcases h.derived with hkind | ⟨layout, hlayout, hdtype, hrank⟩
  · rw [if_pos hkind]
    rfl
  · simp only [hlayout, hdtype, hrank, Except.mapError, ok_bind, not_true_eq_false, or_self,
      if_false]
    split <;> rfl

/-- Another node with a new name passes the check as the last one. -/
theorem checkAll_concat (h : checkAll earlier nodes = .ok ())
    (hcheck : node.check (earlier ++ nodes) = .ok ())
    (hnew : ∀ other ∈ earlier ++ nodes, other.id ≠ node.id) :
    checkAll earlier (nodes ++ [node]) = .ok () := by
  induction nodes generalizing earlier with
  | nil =>
    rw [List.append_nil] at hcheck hnew
    have hany : ¬earlier.any (·.id = node.id) := by simpa using hnew
    rw [List.nil_append, checkAll, hcheck, ok_bind, if_neg hany]
    rfl
  | cons first nodes ih =>
    rw [checkAll, bind_eq_ok_iff] at h
    obtain ⟨_, hfirst, h⟩ := h
    split at h
    · cases h
    rename_i hfresh
    rw [List.cons_append, checkAll, hfirst, ok_bind, if_neg hfresh]
    exact ih h (by simpa using hcheck) (by simpa using hnew)

end Node

namespace Graph

/-- The declared layouts are those that the operations derive from the declared layouts of their
operands. -/
def Derived (graph : Graph) : Prop :=
  ∀ node ∈ graph.nodes, node.kind = .parameter ∨
    node.op.outputLayout (graph.inputLayouts node) = .ok node.output

theorem ofNodes?_eq_ok {outputs : List NodeId} (h : checkGraph nodes outputs = .ok ()) :
    ofNodes? nodes outputs = .ok ⟨nodes, outputs, h⟩ := by
  unfold ofNodes?
  split
  · rfl
  · rename_i herror
    rw [h] at herror
    cases herror

end Graph

/-! ## Calls -/

/-- A call of a builder that derives what it appends. -/
inductive BuilderCall where
  | parameter (layout : Layout)
  | constant (tensor : HostTensor)
  | add (op : OpSpec) (inputs : List NodeId)
deriving DecidableEq, Repr

namespace GraphBuilder

/-- Makes a call: the name of the new node, and the builder behind it. -/
def call (builder : GraphBuilder) : BuilderCall → Except GraphError (NodeId × GraphBuilder)
  | .parameter layout => .ok (builder.parameter layout)
  | .constant tensor => .ok (builder.constant tensor)
  | .add op inputs => builder.add op inputs

/-- Makes calls one after the other; all of them succeed, or the first failure is answered. -/
def perform (builder : GraphBuilder) :
    List BuilderCall → Except GraphError (List NodeId × GraphBuilder)
  | [] => .ok ([], builder)
  | call :: rest => do
    let (id, builder) ← builder.call call
    let (ids, builder) ← builder.perform rest
    return (id :: ids, builder)

variable {builder builder' : GraphBuilder} {op : OpSpec} {inputs ids outputs : List NodeId}
  {output : Layout} {calls : List BuilderCall} {id : NodeId}

/-- What holds of a builder between two calls. -/
structure Sound (builder : GraphBuilder) : Prop where
  checked : Node.checkAll [] builder.nodes = .ok ()
  numbered : ∀ (p : Nat) (node : Node), builder.nodes[p]? = some node →
    node.id = ⟨UInt32.ofNat p⟩
  /-- The declared layout of a node is the one that its operation derives. -/
  derived : ∀ (p : Nat) (node : Node), builder.nodes[p]? = some node → node.kind = .parameter ∨
    ∃ layouts, node.operandLayouts (builder.nodes.take p) = .ok layouts ∧
      node.op.outputLayout layouts = .ok node.output

theorem sound_empty : Sound {} := ⟨rfl, nofun, nofun⟩

/-- Operands that the builder knows are results of the nodes so far. -/
theorem operandLayouts_eq (h : inputs.mapM builder.layoutOf = .ok layouts) :
    Node.operandLayouts ⟨builder.nextId, op, inputs, [output]⟩ builder.nodes = .ok layouts := by
  rw [Node.operandLayouts, mapM_eq_ok_iff]
  refine (mapM_eq_ok_iff.1 h).imp fun input layout hlayout ↦ ?_
  unfold layoutOf at hlayout
  cases hfound : Node.layoutIn? builder.nodes input with
  | none =>
    rw [hfound] at hlayout
    cases hlayout
  | some found =>
    rw [hfound] at hlayout
    exact hlayout

/-- Names are new as long as there are any. -/
theorem Sound.id_ne_nextId (h : builder.Sound) (hroom : builder.nodes.length < UInt32.size) :
    ∀ node ∈ builder.nodes, node.id ≠ builder.nextId := by
  intro node hmem hid
  obtain ⟨p, hp⟩ := List.mem_iff_getElem?.1 hmem
  have hlt : p < builder.nodes.length := (List.getElem?_eq_some_iff.1 hp).1
  rw [h.numbered p node hp, nextId, NodeId.mk.injEq] at hid
  have hsame := congrArg UInt32.toNat hid
  rw [UInt32.toNat_ofNat_of_lt' (Nat.lt_trans hlt hroom), UInt32.toNat_ofNat_of_lt' hroom] at hsame
  exact Nat.ne_of_lt hlt hsame

private theorem getElem?_concat_cases {new : Node} {p : Nat}
    (h : (nodes ++ [new])[p]? = some node) :
    p < nodes.length ∧ nodes[p]? = some node ∨ p = nodes.length ∧ node = new := by
  rcases Nat.lt_or_ge p nodes.length with hlt | hge
  · exact .inl ⟨hlt, by rwa [List.getElem?_append_left hlt] at h⟩
  · rw [List.getElem?_append_right hge, List.getElem?_singleton] at h
    split at h
    · exact .inr ⟨by omega, (Option.some.inj h).symm⟩
    · cases h

/-- A node that is derived from known operands may be appended. -/
theorem Sound.push (h : builder.Sound) (hroom : builder.nodes.length < UInt32.size)
    (hlayouts : inputs.mapM builder.layoutOf = .ok layouts) (harity : inputs.length = op.arity)
    (hderived : op.kind = .parameter ∨ op.outputLayout layouts = .ok output) :
    (builder.push op inputs output).2.Sound := by
  have hoperands : Node.operandLayouts ⟨builder.nextId, op, inputs, [output]⟩ builder.nodes =
      .ok layouts := operandLayouts_eq hlayouts
  refine ⟨Node.checkAll_concat h.checked (Node.check_of_fits
    ⟨rfl, harity, hoperands, hderived.imp_right fun hlayout ↦ ⟨output, hlayout, rfl, rfl⟩⟩)
    (h.id_ne_nextId hroom), fun p node hp ↦ ?_, fun p node hp ↦ ?_⟩
  · rcases getElem?_concat_cases hp with ⟨_, hp⟩ | ⟨rfl, rfl⟩
    · exact h.numbered p node hp
    · rfl
  · simp only [GraphBuilder.push]
    rcases getElem?_concat_cases hp with ⟨hlt, hp⟩ | ⟨rfl, rfl⟩
    · rw [List.take_append_of_le_length (Nat.le_of_lt hlt)]
      exact h.derived p node hp
    · rw [List.take_left]
      exact hderived.imp_right fun hlayout ↦ ⟨layouts, hoperands, hlayout⟩

/-- A call that succeeds appends one node, under the name that it answers. -/
theorem Sound.call {next : BuilderCall} (h : builder.Sound)
    (hroom : builder.nodes.length < UInt32.size)
    (hcall : builder.call next = .ok (id, builder')) :
    builder'.Sound ∧ ∃ node, builder'.nodes = builder.nodes ++ [node] ∧ node.id = id := by
  cases next with
  | parameter layout =>
    cases hcall
    exact ⟨h.push hroom rfl rfl (.inl rfl), _, rfl, rfl⟩
  | constant tensor =>
    cases hcall
    exact ⟨h.push hroom rfl rfl (.inr rfl), _, rfl, rfl⟩
  | add op inputs =>
    obtain ⟨layouts, hlayouts, hcall⟩ := bind_eq_ok_iff.1 hcall
    obtain ⟨output, houtput, hcall⟩ := bind_eq_ok_iff.1 hcall
    cases hcall
    rw [mapError_eq_ok_iff] at houtput
    have harity : inputs.length = op.arity := by
      rw [(mapM_eq_ok_iff.1 hlayouts).length_eq]
      by_contra hne
      rw [OpSpec.outputLayout_of_length_ne hne] at houtput
      cases houtput
    exact ⟨h.push hroom hlayouts harity (.inr houtput), _, rfl, rfl⟩

/-- Calls that succeed append a node each. -/
theorem Sound.perform (h : builder.Sound)
    (hroom : builder.nodes.length + calls.length ≤ UInt32.size)
    (hcalls : builder.perform calls = .ok (ids, builder')) :
    builder'.Sound ∧ ∃ new, builder'.nodes = builder.nodes ++ new ∧ new.map Node.id = ids := by
  induction calls generalizing builder ids with
  | nil =>
    cases hcalls
    exact ⟨h, [], (List.append_nil _).symm, rfl⟩
  | cons call calls ih =>
    obtain ⟨⟨id, middle⟩, hcall, hcalls⟩ := bind_eq_ok_iff.1 hcalls
    obtain ⟨⟨rest, _⟩, hrest, hcalls⟩ := bind_eq_ok_iff.1 hcalls
    cases hcalls
    rw [List.length_cons] at hroom
    obtain ⟨hmiddle, node, hnodes, rfl⟩ := h.call (by omega) hcall
    obtain ⟨hsound, new, hnew, rfl⟩ := ih hmiddle (by simp [hnodes]; omega) hrest
    exact ⟨hsound, node :: new, by rw [hnew, hnodes, List.append_assoc, List.singleton_append], rfl⟩

/-- Nodes that some outputs are among are a graph, whose declared layouts are all derived. -/
theorem Sound.exists_graph (h : builder.Sound) (hne : outputs ≠ [])
    (hknown : ∀ id ∈ outputs, ∃ node ∈ builder.nodes, node.id = id) :
    ∃ graph, builder.finish? outputs = .ok graph ∧ graph.Derived := by
  have hvalid : checkGraph builder.nodes outputs = .ok () := by
    rw [checkGraph, h.checked, ok_bind, if_neg hne]
    refine forM_eq_ok_iff.2 fun id hid ↦ if_pos ?_
    obtain ⟨node, hmem, rfl⟩ := hknown id hid
    exact List.any_eq_true.2 ⟨node, hmem, decide_eq_true rfl⟩
  refine ⟨_, Graph.ofNodes?_eq_ok hvalid, fun node hmem ↦ ?_⟩
  obtain ⟨p, hp⟩ := List.mem_iff_getElem?.1 hmem
  refine (h.derived p node hp).imp_right ?_
  rintro ⟨layouts, hlayouts, houtput⟩
  have hfits := (Graph.fits hp).operands_eq
  rwa [Except.ok.inj (hfits.symm.trans hlayouts)]

/-- Calls that succeed, as many as there are names, make a graph with any outputs among the nodes
that they answered. -/
theorem exists_graph_of_perform (hcalls : perform {} calls = .ok (ids, builder))
    (hcount : calls.length ≤ UInt32.size) (hne : outputs ≠ []) (hids : outputs ⊆ ids) :
    ∃ graph, builder.finish? outputs = .ok graph ∧ graph.Derived := by
  obtain ⟨hsound, new, hnodes, rfl⟩ := sound_empty.perform (by simpa using hcount) hcalls
  refine hsound.exists_graph hne fun id hid ↦ ?_
  obtain ⟨node, hmem, rfl⟩ := List.mem_map.1 (hids hid)
  exact ⟨node, hnodes ▸ List.mem_append_right _ hmem, rfl⟩

end GraphBuilder

end TensorEngine
