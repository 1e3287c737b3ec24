import TensorEngine.Device
import TensorEngine.Error
import TensorEngine.Text.Quoted

/-!
# The registry of implementations

Implementations are contributed as descriptors, one after the other.  A builder refuses a
descriptor whose operation and family already have one of that name or with the same supported
set; building checks that every operation kind has a reference implementation and freezes the
list.  For a node the registry ranks the descriptors that can run it:

1. those that take all layouts as they are before those that need a conversion,
2. a higher priority before a lower one,
3. the preferred family before the others,
4. the one registered earlier.
-/

namespace TensorEngine

/-- The static description of an implementation of type `ι` and how to create it. -/
structure Descriptor (ι : Type) where
  name : String
  op : OperationKind
  backend : BackendKind
  /-- The version of its written form. -/
  version : UInt32 := 1
  /-- Higher priorities are tried first. -/
  priority : Int := 0
  /-- The element types and formats that it takes. -/
  supported : List (DType × Format)
  instantiate : Node → ι

namespace Descriptor

variable {ι κ : Type}

/-- The pairs, each only where it stands first. -/
def dedup (pairs : List (DType × Format)) : List (DType × Format) :=
  pairs.foldl (fun kept pair ↦ if pair ∈ kept then kept else kept ++ [pair]) []

def pairings (dtypes : List DType) (formats : List Format) : List (DType × Format) :=
  dtypes.flatMap fun dtype ↦ formats.map fun format ↦ (dtype, format)

/-- The same descriptor for implementations of another type. -/
def map (f : ι → κ) (descriptor : Descriptor ι) : Descriptor κ :=
  { descriptor with instantiate := f ∘ descriptor.instantiate }

def matchesExactly (descriptor : Descriptor ι) (layout : Layout) : Bool :=
  descriptor.supported.any fun (dtype, format) ↦
    dtype = layout.dtype && (layout.format = .any || format = layout.format)

/-- Whether the layout is taken at least after a conversion. -/
def matchesWithConversion (descriptor : Descriptor ι) (layout : Layout) : Bool :=
  descriptor.matchesExactly layout || descriptor.supported.any fun (dtype, format) ↦
    dtype = layout.dtype && format = .any

/-- Whether both support the same pairs. -/
def sameSupport (a b : Descriptor ι) : Bool :=
  a.supported.all (· ∈ b.supported) && b.supported.all (· ∈ a.supported)

/-- Whether two descriptors must not be registered together. -/
def clashes (a b : Descriptor ι) : Bool :=
  a.op = b.op && a.backend = b.backend && (a.name = b.name || a.sameSupport b)

def text (descriptor : Descriptor ι) : String :=
  Text.openRecord "ImplementationDescriptor"
    [("name", Text.quoted descriptor.name), ("op", descriptor.op.name),
      ("backend", descriptor.backend.name), ("version", toString descriptor.version),
      ("priority", toString descriptor.priority),
      ("supported", Text.list (descriptor.supported.map fun (dtype, format) ↦
        Text.tuple [dtype.name, format.name]))]

end Descriptor

/-! ## Registration -/

/-- The descriptors registered so far. -/
structure RegistryBuilder (ι : Type) where
  descriptors : List (Descriptor ι)
  distinct : descriptors.Pairwise fun a b ↦ a.clashes b = false

namespace RegistryBuilder

variable {ι : Type}

/-- Nothing registered yet. -/
def empty : RegistryBuilder ι := ⟨[], .nil⟩

def size (builder : RegistryBuilder ι) : Nat := builder.descriptors.length

/-- Adds a descriptor that clashes with none. -/
def register (builder : RegistryBuilder ι) (descriptor : Descriptor ι) :
    Except RuntimeError (RegistryBuilder ι) :=
  if h : builder.descriptors.any (·.clashes descriptor) then
    .error (.duplicateImplementation descriptor.name descriptor.op descriptor.backend)
  else .ok {
    descriptors := builder.descriptors ++ [descriptor]
    distinct := by
      refine List.pairwise_append.2 ⟨builder.distinct, List.pairwise_singleton _ _, ?_⟩
      intro a ha b hb
      simp only [List.mem_singleton] at hb
      simp only [List.any_eq_true, not_exists, not_and, Bool.not_eq_true] at h
      exact hb ▸ h a ha }

/-- Adds descriptors one after the other; those in front of a clash stay. -/
def registerAll (builder : RegistryBuilder ι) :
    List (Descriptor ι) → Except RuntimeError Unit × RegistryBuilder ι
  | [] => (.ok (), builder)
  | descriptor :: rest =>
    match builder.register descriptor with
    | .ok builder => builder.registerAll rest
    | .error error => (.error error, builder)

end RegistryBuilder

/-- The operation kinds without a reference implementation. -/
def missingKinds {ι : Type} (descriptors : List (Descriptor ι)) : List OperationKind :=
  OperationKind.all.filter fun kind ↦
    !descriptors.any fun descriptor ↦ descriptor.op = kind && descriptor.backend = .reference

abbrev DescriptorId := Nat

/-- A frozen list of descriptors. -/
structure Registry (ι : Type) where
  descriptors : List (Descriptor ι)
  distinct : descriptors.Pairwise fun a b ↦ a.clashes b = false
  /-- Every operation kind has a reference implementation. -/
  complete : missingKinds descriptors = []

/-- Freezes the registry when no operation kind lacks a reference implementation. -/
def RegistryBuilder.build {ι : Type} (builder : RegistryBuilder ι) :
    Except RuntimeError (Registry ι) :=
  if h : missingKinds builder.descriptors = [] then
    .ok ⟨builder.descriptors, builder.distinct, h⟩
  else .error (.incompleteRegistry (missingKinds builder.descriptors))

/-! ## Selection -/

/-- A ranked candidate for a node. -/
structure Selection where
  descriptor : DescriptorId
  /-- Whether it takes the node's layouts only after a conversion. -/
  requiresConversion : Bool
deriving DecidableEq, Repr, Inhabited

namespace Registry

variable {ι : Type}

def descriptor? (registry : Registry ι) (id : DescriptorId) : Option (Descriptor ι) :=
  registry.descriptors[id]?

/-- The place of the descriptor with this operation, family and name. -/
def lookup (registry : Registry ι) (op : OperationKind) (backend : BackendKind)
    (name : String) : Option DescriptorId :=
  registry.descriptors.findIdx? fun descriptor ↦
    descriptor.op = op && descriptor.backend = backend && descriptor.name = name

/-- Whether the first descriptor is tried before the second. -/
def ranksBefore (a b : Descriptor ι × DescriptorId) : Bool :=
  b.1.priority < a.1.priority
    || a.1.priority = b.1.priority
      && (a.1.backend.rank < b.1.backend.rank
        || a.1.backend.rank = b.1.backend.rank && a.2 ≤ b.2)

/-- The descriptors of the node's kind that a device enables, with their places. -/
def enabled (registry : Registry ι) (node : Node) (device : DeviceCaps) :
    List (Descriptor ι × DescriptorId) :=
  registry.descriptors.zipIdx.filter fun (descriptor, _) ↦
    descriptor.op = node.kind && device.enables descriptor.backend

/-- The places of descriptors, best first. -/
def ranked (descriptors : List (Descriptor ι × DescriptorId)) : List DescriptorId :=
  (descriptors.mergeSort ranksBefore).map Prod.snd

/-- The descriptors that can run a node on a device, best first; there may be none. -/
def selections (registry : Registry ι) (node : Node) (inputs : List Layout)
    (device : DeviceCaps) : List Selection :=
  let layouts := inputs ++ node.outputs
  let (exact, others) := (registry.enabled node device).partition fun (descriptor, _) ↦
    layouts.all descriptor.matchesExactly
  let converting := others.filter fun (descriptor, _) ↦
    layouts.all descriptor.matchesWithConversion
  (ranked exact).map (⟨·, false⟩) ++ (ranked converting).map (⟨·, true⟩)

/-- No descriptor can run a node with these operands. -/
def incompatible (node : Node) (inputs : List Layout) : RuntimeError :=
  .noCompatibleImplementation node.id node.kind (Layout.texts (inputs ++ node.outputs))

/-- The descriptors that can run a node on a device, best first; at least one. -/
def candidates (registry : Registry ι) (node : Node) (inputs : List Layout)
    (device : DeviceCaps) : Except RuntimeError (List Selection) :=
  match registry.selections node inputs device with
  | [] => .error (incompatible node inputs)
  | selections => .ok selections

/-- The best descriptor for a node on a device. -/
def select (registry : Registry ι) (node : Node) (inputs : List Layout)
    (device : DeviceCaps) : Except RuntimeError Selection :=
  match registry.selections node inputs device with
  | [] => .error (incompatible node inputs)
  | best :: _ => .ok best

def text (registry : Registry ι) : String :=
  Text.record "ImplementationRegistry"
    [("descriptors", Text.list (registry.descriptors.map Descriptor.text))]

end Registry

/-! ## The shared registry -/

/-- A registry that is installed at most once and shared from then on. -/
structure SharedRegistry (ι : Type) where
  installed : Option (Registry ι) := none

namespace SharedRegistry

variable {ι : Type}

/-- Installs a registry, the first time. -/
def install (shared : SharedRegistry ι) (registry : Registry ι) :
    Except RuntimeError (SharedRegistry ι) :=
  match shared.installed with
  | some _ => .error .registryAlreadyInitialized
  | none => .ok ⟨some registry⟩

def get (shared : SharedRegistry ι) : Except RuntimeError (Registry ι) :=
  match shared.installed with
  | some registry => .ok registry
  | none => .error .registryNotInitialized

end SharedRegistry

end TensorEngine
