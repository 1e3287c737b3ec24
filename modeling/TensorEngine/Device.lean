import TensorEngine.Backend

/-!
# Devices

What a program is compiled for.  The fingerprint covers every field, so a compiled form made for
one device is refused on another.
-/

namespace TensorEngine

open Wire Fingerprint

/-- The description of a device. -/
structure DeviceCaps where
  name : String
  /-- The families of implementations that may be used on it. -/
  backends : List BackendKind
  computeUnits : UInt64
  features : List String
deriving DecidableEq, Repr, Inhabited

namespace DeviceCaps

/-- Whether a family of implementations may be used. -/
def enables (device : DeviceCaps) (backend : BackendKind) : Bool := backend ∈ device.backends

instance : Encode DeviceCaps where
  encode device := encode device.name ++ encode device.backends ++ encode device.computeUnits
    ++ encode device.features

/-- The fingerprint of the whole description. -/
def fingerprint (device : DeviceCaps) : UInt64 := ofValue device

end DeviceCaps

end TensorEngine
