import TensorEngine.Catalogue.Reference
import TensorEngine.Proofs.Registry.Ranking

/-!
# The ranking of candidates

A list of selections ranks the candidates for a node when it has every descriptor that can run the
node and nothing else, each strictly before those that it beats.  Only one list does so, which is
the answer of the registry; and what is left of it without a family of implementations ranks the
candidates on the device without that family.

| a candidate beats another | because |
|---|---|
| one that takes all layouts as they are | the other needs a conversion |
| a higher priority | equal otherwise |
| vendor before generic before reference | of equal priority |
| registered earlier | of the same family |
-/

namespace TensorEngine

variable {ι : Type} {registry : Registry ι} {device : DeviceCaps} {node : Node}
  {inputs : List Layout} {selection : Selection} {descriptor : Descriptor ι} {layout : Layout}
  {backend : BackendKind}

/-! ## Registration -/

namespace RegistryBuilder

/-- Registers descriptors one after the other; one that is refused is left out. -/
def registerEach (builder : RegistryBuilder ι) : List (Descriptor ι) → RegistryBuilder ι
  | [] => builder
  | descriptor :: rest =>
    match builder.register descriptor with
    | .ok extended => extended.registerEach rest
    | .error _ => builder.registerEach rest

/-- One call adds its descriptor at the end, if anything. -/
theorem descriptors_of_register {builder extended : RegistryBuilder ι}
    (h : builder.register descriptor = .ok extended) :
    extended.descriptors = builder.descriptors ++ [descriptor] := by
  unfold register at h
  split at h
  · cases h
  · obtain rfl := Except.ok.inj h
    rfl

/-- What is registered stands in the order of the calls. -/
theorem descriptors_registerEach (builder : RegistryBuilder ι) (calls : List (Descriptor ι)) :
    ∃ kept, (builder.registerEach calls).descriptors = builder.descriptors ++ kept ∧
      kept.Sublist calls := by
  induction calls generalizing builder with
  | nil => exact ⟨[], (List.append_nil _).symm, .slnil⟩
  | cons descriptor rest ih =>
    rw [registerEach]
    cases hregister : builder.register descriptor with
    | ok extended =>
      obtain ⟨kept, hkept, hsublist⟩ := ih extended
      refine ⟨descriptor :: kept, ?_, hsublist.cons_cons descriptor⟩
      rw [hkept, descriptors_of_register hregister, List.append_assoc, List.singleton_append]
    | error error =>
      obtain ⟨kept, hkept, hsublist⟩ := ih builder
      exact ⟨kept, hkept, hsublist.cons descriptor⟩

theorem descriptors_of_build {builder : RegistryBuilder ι} (h : builder.build = .ok registry) :
    registry.descriptors = builder.descriptors := by
  unfold build at h
  split at h
  · obtain rfl := Except.ok.inj h
    rfl
  · cases h

end RegistryBuilder

/-! ## Coverage -/

namespace Descriptor

/-- The layout is taken as it is: its element type is supported in its format, or it has no
particular format. -/
def CoversExactly (descriptor : Descriptor ι) (layout : Layout) : Prop :=
  ∃ format, (layout.dtype, format) ∈ descriptor.supported ∧
    (layout.format = .any ∨ format = layout.format)

/-- The layout is taken as it is, or after a conversion to the format that a supported pair leaves
open. -/
def Covers (descriptor : Descriptor ι) (layout : Layout) : Prop :=
  descriptor.CoversExactly layout ∨ (layout.dtype, Format.any) ∈ descriptor.supported

theorem matchesExactly_iff :
    descriptor.matchesExactly layout = true ↔ descriptor.CoversExactly layout := by
  simp only [matchesExactly, CoversExactly, List.any_eq_true, Prod.exists, Bool.and_eq_true,
    Bool.or_eq_true, decide_eq_true_eq]
  constructor
  · rintro ⟨dtype, format, hmem, rfl, hformat⟩
    exact ⟨format, hmem, hformat⟩
  · rintro ⟨format, hmem, hformat⟩
    exact ⟨layout.dtype, format, hmem, rfl, hformat⟩

theorem matchesWithConversion_iff :
    descriptor.matchesWithConversion layout = true ↔ descriptor.Covers layout := by
  rw [matchesWithConversion, Bool.or_eq_true, matchesExactly_iff, Covers]
  refine or_congr_right ?_
  simp only [List.any_eq_true, Prod.exists, Bool.and_eq_true, decide_eq_true_eq]
  constructor
  · rintro ⟨dtype, format, hmem, rfl, rfl⟩
    exact hmem
  · exact fun hmem ↦ ⟨layout.dtype, .any, hmem, rfl, rfl⟩

end Descriptor

/-- The device without a family of implementations. -/
def DeviceCaps.without (device : DeviceCaps) (backend : BackendKind) : DeviceCaps :=
  { device with backends := device.backends.filter (· ≠ backend) }

namespace Registry

/-! ## Who qualifies -/

/-- A descriptor can run a node on a device, and the selection says how. -/
structure Qualifies (registry : Registry ι) (node : Node) (inputs : List Layout)
    (device : DeviceCaps) (selection : Selection) (descriptor : Descriptor ι) : Prop where
  descriptor_eq : registry.descriptor? selection.descriptor = some descriptor
  op_eq : descriptor.op = node.kind
  enabled : descriptor.backend ∈ device.backends
  covers : ∀ layout ∈ inputs ++ node.outputs, descriptor.Covers layout
  requiresConversion_iff : selection.requiresConversion = true ↔
    ∃ layout ∈ inputs ++ node.outputs, ¬descriptor.CoversExactly layout

theorem candidate_iff_qualifies : registry.Candidate node inputs device selection descriptor ↔
    registry.Qualifies node inputs device selection descriptor := by
  have hcovers : (inputs ++ node.outputs).all descriptor.matchesWithConversion = true ↔
      ∀ layout ∈ inputs ++ node.outputs, descriptor.Covers layout := by
    simp only [List.all_eq_true, Descriptor.matchesWithConversion_iff]
  have hconversion :
      selection.requiresConversion = (!descriptor.takesExactly (inputs ++ node.outputs)) ↔
        (selection.requiresConversion = true ↔
          ∃ layout ∈ inputs ++ node.outputs, ¬descriptor.CoversExactly layout) := by
    rw [Bool.eq_iff_iff, Bool.not_eq_true', ← Bool.not_eq_true, Descriptor.takesExactly,
      List.all_eq_true]
    simp only [Descriptor.matchesExactly_iff, not_forall, exists_prop]
  constructor
  · rintro ⟨⟨hdescriptor, hop, hdevice, hexact⟩, htakes⟩
    exact ⟨hdescriptor, hop, of_decide_eq_true hdevice, hcovers.1 htakes, hconversion.1 hexact⟩
  · rintro ⟨hdescriptor, hop, hdevice, htakes, hexact⟩
    exact ⟨⟨hdescriptor, hop, decide_eq_true hdevice, hconversion.2 hexact⟩, hcovers.2 htakes⟩

theorem Qualifies.without_iff :
    registry.Qualifies node inputs (device.without backend) selection descriptor ↔
      registry.Qualifies node inputs device selection descriptor ∧
        descriptor.backend ≠ backend := by
  have hmem : descriptor.backend ∈ (device.without backend).backends ↔
      descriptor.backend ∈ device.backends ∧ descriptor.backend ≠ backend := by
    simp only [DeviceCaps.without, List.mem_filter, decide_eq_true_eq]
  constructor
  · rintro ⟨hdescriptor, hop, hdevice, hcovers, hconversion⟩
    exact ⟨⟨hdescriptor, hop, (hmem.1 hdevice).1, hcovers, hconversion⟩, (hmem.1 hdevice).2⟩
  · rintro ⟨⟨hdescriptor, hop, hdevice, hcovers, hconversion⟩, hne⟩
    exact ⟨hdescriptor, hop, hmem.2 ⟨hdevice, hne⟩, hcovers, hconversion⟩

/-! ## Who comes first -/

/-- The descriptor of one selection ranks strictly before that of another. -/
def Precedes (registry : Registry ι) (a b : Selection) : Prop :=
  ∃ descriptor ∈ registry.descriptor? a.descriptor,
    ∃ descriptor' ∈ registry.descriptor? b.descriptor, a.rank descriptor < b.rank descriptor'

theorem Precedes.asymm {a b : Selection} (h : registry.Precedes a b) : ¬registry.Precedes b a := by
  obtain ⟨descriptor, hmem, descriptor', hmem', hlt⟩ := h
  rintro ⟨other', hother', other, hother, hlt'⟩
  obtain rfl : descriptor = other := Option.some.inj (hmem.symm.trans hother)
  obtain rfl : descriptor' = other' := Option.some.inj (hmem'.symm.trans hother')
  exact lt_asymm hlt hlt'

theorem Precedes.ne {a b : Selection} (h : registry.Precedes a b) : a ≠ b := by
  rintro rfl
  exact h.asymm h

/-- Everything that can run a node on a device, each strictly before what it beats. -/
structure Ranking (registry : Registry ι) (node : Node) (inputs : List Layout)
    (device : DeviceCaps) (selections : List Selection) : Prop where
  mem_iff : ∀ selection, selection ∈ selections ↔
    ∃ descriptor, registry.Qualifies node inputs device selection descriptor
  nodup : (selections.map Selection.descriptor).Nodup
  ordered : selections.Pairwise registry.Precedes

/-- The candidates can be ranked in one way only. -/
theorem Ranking.unique {xs ys : List Selection} (hxs : registry.Ranking node inputs device xs)
    (hys : registry.Ranking node inputs device ys) : xs = ys := by
  have hperm : xs.Perm ys :=
    (List.perm_ext_iff_of_nodup (hxs.ordered.imp Precedes.ne) (hys.ordered.imp Precedes.ne)).2
      fun selection ↦ (hxs.mem_iff selection).trans (hys.mem_iff selection).symm
  exact hperm.eq_of_pairwise (fun a b _ _ hab hba ↦ absurd hba hab.asymm) hxs.ordered hys.ordered

/-! ## What the registry answers -/

/-- No descriptor is enabled at two places. -/
theorem nodup_enabled (registry : Registry ι) (node : Node) (device : DeviceCaps) :
    ((registry.enabled node device).map Prod.snd).Nodup := by
  have hplaces : (registry.descriptors.zipIdx.map Prod.snd).Nodup := by
    rw [List.zipIdx_map_snd]
    exact List.nodup_range'
  exact hplaces.sublist ((List.filter_sublist).map Prod.snd)

theorem perm_ranked (descriptors : List (Descriptor ι × DescriptorId)) :
    (ranked descriptors).Perm (descriptors.map Prod.snd) :=
  (List.mergeSort_perm ..).map Prod.snd

/-- No descriptor is selected twice. -/
theorem nodup_selections (registry : Registry ι) (node : Node) (inputs : List Layout)
    (device : DeviceCaps) :
    ((registry.selections node inputs device).map Selection.descriptor).Nodup := by
  unfold selections
  simp only [List.partition_eq_filter_filter, List.map_append, List.map_map, Function.comp_def,
    List.map_id']
  refine ((perm_ranked _).append (perm_ranked _)).nodup_iff.2 ?_
  rw [← List.map_append]
  have hparts := (List.filter_append_perm
    (fun entry ↦ (inputs ++ node.outputs).all entry.1.matchesExactly)
    (registry.enabled node device)).map Prod.snd
  exact (hparts.nodup_iff.2 (nodup_enabled registry node device)).sublist
    ((List.filter_sublist.append_left _).map Prod.snd)

/-- The selections are everything that qualifies, in order. -/
theorem ranking_selections (registry : Registry ι) (node : Node) (inputs : List Layout)
    (device : DeviceCaps) :
    registry.Ranking node inputs device (registry.selections node inputs device) := by
  have hnodup := nodup_selections registry node inputs device
  refine ⟨fun selection ↦ ?_, hnodup, ?_⟩
  · rw [mem_selections_iff]
    exact exists_congr fun _ ↦ candidate_iff_qualifies
  · have hle := (pairwise_selections registry node inputs device).and (List.pairwise_map.1 hnodup)
    refine hle.imp_of_mem fun {a b} ha hb ⟨hrank, hne⟩ ↦ ?_
    obtain ⟨descriptor, hdescriptor⟩ := mem_selections_iff.1 ha
    obtain ⟨descriptor', hdescriptor'⟩ := mem_selections_iff.1 hb
    refine ⟨descriptor, hdescriptor.descriptor_eq, descriptor', hdescriptor'.descriptor_eq,
      lt_of_le_of_ne (hrank _ _ hdescriptor.descriptor_eq hdescriptor'.descriptor_eq) fun heq ↦ ?_⟩
    exact hne (congrArg (fun rank ↦ (ofLex (ofLex (ofLex rank).2).2).2) heq)

/-- Whether the descriptor of a selection belongs to another family. -/
def outside (registry : Registry ι) (backend : BackendKind) (selection : Selection) : Bool :=
  (registry.descriptor? selection.descriptor).all (·.backend ≠ backend)

/-- Without a family, its descriptors are missing and the others stay in order. -/
theorem Ranking.without {selections : List Selection}
    (h : registry.Ranking node inputs device selections) (backend : BackendKind) :
    registry.Ranking node inputs (device.without backend)
      (selections.filter (registry.outside backend)) := by
  refine ⟨fun selection ↦ ?_, h.nodup.sublist (List.filter_sublist.map _),
    h.ordered.sublist List.filter_sublist⟩
  simp only [List.mem_filter, h.mem_iff, Qualifies.without_iff]
  constructor
  · rintro ⟨⟨descriptor, hqualifies⟩, houtside⟩
    rw [outside, hqualifies.descriptor_eq, Option.all_some, decide_eq_true_eq] at houtside
    exact ⟨descriptor, hqualifies, houtside⟩
  · rintro ⟨descriptor, hqualifies, hne⟩
    refine ⟨⟨descriptor, hqualifies⟩, ?_⟩
    rw [outside, hqualifies.descriptor_eq, Option.all_some, decide_eq_true_eq]
    exact hne

/-- The answer for a ranking: itself, unless nothing can run the node. -/
def answer (node : Node) (inputs : List Layout) (selections : List Selection) :
    Except RuntimeError (List Selection) :=
  if selections = [] then
    .error (.noCompatibleImplementation node.id node.kind (Layout.texts (inputs ++ node.outputs)))
  else .ok selections

theorem candidates_eq_answer (registry : Registry ι) (node : Node) (inputs : List Layout)
    (device : DeviceCaps) : registry.candidates node inputs device =
      answer node inputs (registry.selections node inputs device) := by
  unfold candidates answer
  cases registry.selections node inputs device with
  | nil => rfl
  | cons => rfl

/-- The candidates for a node on a device are ranked: they are the descriptors of its kind that the
device enables and that cover all its layouts, each once and strictly in order, and the registry
fails exactly when there are none.  Disabling a family leaves the candidates of the others in their
order.  The places of descriptors follow the calls that registered them. -/
theorem candidates_ranked (registry : Registry ι) :
    (∀ calls, (RegistryBuilder.empty.registerEach calls).build = .ok registry →
      registry.descriptors.Sublist calls) ∧
    ∀ node inputs device, ∃ selections, registry.Ranking node inputs device selections ∧
      registry.candidates node inputs device = answer node inputs selections ∧
      ∀ backend, registry.candidates node inputs (device.without backend) =
        answer node inputs (selections.filter (registry.outside backend)) := by
  constructor
  · intro calls hbuild
    obtain ⟨kept, hkept, hsublist⟩ := RegistryBuilder.descriptors_registerEach .empty calls
    rw [RegistryBuilder.descriptors_of_build hbuild, hkept]
    exact hsublist
  · intro node inputs device
    have hranking := ranking_selections registry node inputs device
    refine ⟨_, hranking, candidates_eq_answer .., fun backend ↦ ?_⟩
    rw [candidates_eq_answer, (hranking.without backend).unique (ranking_selections ..)]

def twiceOffered : List (Descriptor ReferenceImplementation) :=
  ReferenceImplementation.descriptors ++ ReferenceImplementation.descriptors

theorem candidates_ranked_twiceOffered : ∃ registry : Registry ReferenceImplementation,
    (RegistryBuilder.empty.registerEach twiceOffered).build = .ok registry ∧
      registry.descriptors.Sublist twiceOffered :=
  ⟨_, rfl, (candidates_ranked _).1 twiceOffered rfl⟩

-- Families are preferred in this order.
example : BackendKind.vendorLibrary.rank < BackendKind.genericKernel.rank ∧
    BackendKind.genericKernel.rank < BackendKind.reference.rank := by
  decide

end Registry

end TensorEngine
