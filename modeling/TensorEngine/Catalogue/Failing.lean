import TensorEngine.Registry

/-!
# An implementation that cannot be finalized

It takes every floating-point layout, outranks all other implementations and then refuses to be
finalized, so a node has to fall back on the next candidate.
-/

namespace TensorEngine

/-- A binary implementation that refuses to be finalized. -/
structure FailingImplementation where
  /-- The family that it claims. -/
  backend : BackendKind
deriving DecidableEq, Repr, Inhabited

namespace FailingImplementation

def kernelName : String := "test.failing_binary"

/-- Whether all layouts hold floating-point numbers. -/
def supports (inputs outputs : List Layout) : Bool :=
  (inputs ++ outputs).all fun layout ↦ layout.dtype = .f32

def refusal : BackendError := .unimplemented "elementwise_binary" "kernel generation failed"

/-- There is no written form. -/
def unwritable : BackendError := .payload "failing binary is not persistable"

instance : Implementation FailingImplementation Unit where
  name _ := kernelName
  backend := backend
  supports _ := supports
  finalize impl _ _ env := (.error refusal, impl, env)
  execute _ _ outputs env :=
    (.error (.refused (.execution "failing binary was never finalized")),
      outputs.map TensorView.data, env)
  serialize _ := .error unwritable
  deserialize impl _ env := (.error unwritable, impl, env)

/-- The family under which it is registered: the reference family, or else the generic one. -/
def registeredAs : BackendKind → BackendKind
  | .reference => .reference
  | .vendorLibrary | .genericKernel => .genericKernel

def descriptor (backend : BackendKind) : Descriptor FailingImplementation :=
  { name := kernelName
    op := .elementwiseBinary
    backend := registeredAs backend
    priority := 200
    supported := Descriptor.pairings [.f32] [.rowMajor, .any]
    instantiate := fun _ ↦ ⟨registeredAs backend⟩ }

end FailingImplementation

end TensorEngine
