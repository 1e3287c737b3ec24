import TensorEngine.Instance

/-!
# What a selection says

A selected descriptor is registered for the kind of the node, belongs to a family that the device
enables, and takes the layouts of the node; as they are exactly when it is not marked as requiring
a conversion.
-/

namespace TensorEngine

variable {ι : Type} {registry : Registry ι} {device : DeviceCaps} {node : Node}
  {inputs : List Layout} {selection : Selection}

/-- All layouts are taken as they are. -/
def Descriptor.takesExactly (descriptor : Descriptor ι) (layouts : List Layout) : Bool :=
  layouts.all descriptor.matchesExactly

namespace Registry

theorem mem_ranked_iff {descriptors : List (Descriptor ι × DescriptorId)} {id : DescriptorId} :
    id ∈ ranked descriptors ↔ ∃ descriptor, (descriptor, id) ∈ descriptors := by
  simp [ranked]

theorem mem_enabled_iff {descriptor : Descriptor ι} {id : DescriptorId} :
    (descriptor, id) ∈ registry.enabled node device ↔
      registry.descriptor? id = some descriptor ∧ descriptor.op = node.kind ∧
        device.enables descriptor.backend = true := by
  rw [enabled, List.mem_filter, List.mk_mem_zipIdx_iff_getElem?, descriptor?]
  simp

/-- A descriptor that is selected for a node on a device. -/
structure Selects (registry : Registry ι) (node : Node) (inputs : List Layout)
    (device : DeviceCaps) (selection : Selection) (descriptor : Descriptor ι) : Prop where
  descriptor_eq : registry.descriptor? selection.descriptor = some descriptor
  op_eq : descriptor.op = node.kind
  enabled : device.enables descriptor.backend = true
  requiresConversion_eq :
    selection.requiresConversion = !descriptor.takesExactly (inputs ++ node.outputs)

/-- Every selection is that of some descriptor. -/
theorem exists_selects (h : selection ∈ registry.selections node inputs device) :
    ∃ descriptor, registry.Selects node inputs device selection descriptor := by
  unfold selections at h
  simp only [List.partition_eq_filter_filter] at h
  rcases List.mem_append.1 h with h | h
  · obtain ⟨id, hid, rfl⟩ := List.mem_map.1 h
    obtain ⟨descriptor, hmem⟩ := mem_ranked_iff.1 hid
    obtain ⟨henabled, hexact⟩ := List.mem_filter.1 hmem
    obtain ⟨hdescriptor, hop, hdevice⟩ := mem_enabled_iff.1 henabled
    exact ⟨descriptor, hdescriptor, hop, hdevice, by rw [Descriptor.takesExactly, hexact]; rfl⟩
  · obtain ⟨id, hid, rfl⟩ := List.mem_map.1 h
    obtain ⟨descriptor, hmem⟩ := mem_ranked_iff.1 hid
    obtain ⟨hother, _⟩ := List.mem_filter.1 hmem
    obtain ⟨henabled, hexact⟩ := List.mem_filter.1 hother
    obtain ⟨hdescriptor, hop, hdevice⟩ := mem_enabled_iff.1 henabled
    exact ⟨descriptor, hdescriptor, hop, hdevice, hexact.symm⟩

end Registry

/-- What is bound was selected. -/
theorem PrimitiveInstance.exists_selects_of_bind {ω : Type} [Implementation ι ω]
    {inst inst' : PrimitiveInstance ι} (h : inst.bind registry device = (.ok (), inst')) :
    ∃ selection descriptor, registry.Selects inst.node inst.declaredInputs device selection
        descriptor ∧
      inst' = { inst with
        bound := some ⟨selection.descriptor, descriptor.instantiate inst.node,
          selection.requiresConversion⟩
        state := .bound } := by
  unfold PrimitiveInstance.bind at h
  simp only at h
  split at h
  · rename_i bound hfound
    obtain ⟨_, rfl⟩ := Prod.mk.inj h
    obtain ⟨selection, hmem, hselection⟩ := List.exists_of_findSome?_eq_some hfound
    obtain ⟨descriptor, hselects⟩ := Registry.exists_selects hmem
    simp only [hselects.descriptor_eq, Option.bind_eq_bind, Option.bind_some] at hselection
    split at hselection
    · obtain rfl := Option.some.inj hselection
      exact ⟨selection, descriptor, hselects, rfl⟩
    · cases hselection
  · exact absurd (Prod.mk.inj h).1 nofun

end TensorEngine
