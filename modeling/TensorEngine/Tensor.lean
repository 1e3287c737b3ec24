import TensorEngine.Layout
import TensorEngine.Scalar

/-!
# Tensor data

Elements of one type in a row, and tensors that give them extents.  Storage only ever grows, and
writing overwrites elements from the front on; what lies behind stays as it was.
-/

namespace TensorEngine

open Wire

/-- Elements of one type. -/
inductive TensorData where
  | f32 (values : Array F32)
  | i32 (values : Array Int32)
  | u8 (values : Array UInt8)
deriving DecidableEq, Repr, Inhabited

namespace TensorData

def empty : DType → TensorData
  | .f32 => .f32 #[]
  | .i32 => .i32 #[]
  | .u8 => .u8 #[]

def zeros (count : Nat) : DType → TensorData
  | .f32 => .f32 (Array.replicate count 0)
  | .i32 => .i32 (Array.replicate count 0)
  | .u8 => .u8 (Array.replicate count 0)

def dtype : TensorData → DType
  | .f32 _ => .f32
  | .i32 _ => .i32
  | .u8 _ => .u8

def size : TensorData → Nat
  | .f32 values => values.size
  | .i32 values => values.size
  | .u8 values => values.size

def isEmpty (data : TensorData) : Bool := data.size = 0

def byteSize (data : TensorData) : Nat := data.size * data.dtype.sizeInBytes

/-- Failures of access to storage. -/
inductive AccessError where
  | viewTooLong (length size : Nat)
  | sourceTooLong (length size : Nat)
  | copyTypes (source target : DType)
  /-- The elements have another type than asked for. -/
  | viewTypes (expected actual : DType)
deriving DecidableEq, Repr

def AccessError.message : AccessError → String
  | .viewTooLong length size => s!"view of {length} elements exceeds storage of {size}"
  | .sourceTooLong length size =>
    s!"source of {length} elements does not fit storage of {size}"
  | .copyTypes source target =>
    s!"cannot copy {source.name} data into {target.name} storage"
  | .viewTypes expected actual => s!"expected {expected.name} tensor, got {actual.name}"

/-! ## Growth -/

/-- Appends an element until there are `size` of them. -/
def padWith {α : Type} (zero : α) (values : Array α) (size : Nat) : Array α :=
  values ++ Array.replicate (size - values.size) zero

/-- Appends zeros until there are `size` elements. -/
def pad (data : TensorData) (size : Nat) : TensorData :=
  match data with
  | .f32 values => .f32 (padWith 0 values size)
  | .i32 values => .i32 (padWith 0 values size)
  | .u8 values => .u8 (padWith 0 values size)

/-- Why storage cannot grow. -/
inductive GrowthError where
  /-- It would span more bytes than any block may. -/
  | tooLarge
  /-- It would span more bytes than the host grants. -/
  | refused
deriving DecidableEq, Repr

/-- The message when storage cannot grow. -/
def GrowthError.message : GrowthError → String
  | .tooLarge =>
    "memory allocation failed because the computed capacity exceeded the collection's maximum"
  | .refused => "memory allocation failed because the memory allocator returned an error"

/-- Grows storage to `size` elements with zeros, where the host grants blocks of up to `granted`
bytes.  Storage that is long enough stays as it is. -/
def grow (data : TensorData) (size granted : Nat) : Except GrowthError TensorData :=
  let bytes := size * data.dtype.sizeInBytes
  if size ≤ data.size then .ok data
  else if Size.maxBlock < bytes then .error .tooLarge
  else if granted < bytes then .error .refused
  else .ok (data.pad size)

/-! ## Reading and writing -/

/-- The first elements, as many as there are. -/
def take (data : TensorData) (length : Nat) : TensorData :=
  match data with
  | .f32 values => .f32 (values.take length)
  | .i32 values => .i32 (values.take length)
  | .u8 values => .u8 (values.take length)

/-- The first `length` elements. -/
def view (data : TensorData) (length : Nat) : Except AccessError TensorData :=
  if length ≤ data.size then .ok (data.take length)
  else .error (.viewTooLong length data.size)

/-- Replaces elements from the front on, as many as there are. -/
def overwriteArray {α : Type} (target source : Array α) : Array α :=
  source.take target.size ++ target.extract source.size target.size

/-- Replaces elements from the front on, as many as there are; elements of another type change
nothing. -/
def overwrite (target source : TensorData) : TensorData :=
  match target, source with
  | .f32 old, .f32 new => .f32 (overwriteArray old new)
  | .i32 old, .i32 new => .i32 (overwriteArray old new)
  | .u8 old, .u8 new => .u8 (overwriteArray old new)
  | target, _ => target

/-- Replaces elements from the front on by all those of `source`. -/
def copyFrom (target source : TensorData) : Except AccessError TensorData :=
  if source.dtype ≠ target.dtype then .error (.copyTypes source.dtype target.dtype)
  else if source.size ≤ target.size then .ok (target.overwrite source)
  else .error (.sourceTooLong source.size target.size)

/-- The elements in reverse order. -/
def reverse : TensorData → TensorData
  | .f32 values => .f32 values.reverse
  | .i32 values => .i32 values.reverse
  | .u8 values => .u8 values.reverse

/-! ## Elements of a known type -/

/-- The elements as floating-point numbers. -/
def asF32 : TensorData → Except AccessError (Array F32)
  | .f32 values => .ok values
  | other => .error (.viewTypes .f32 other.dtype)

/-- The elements as integers. -/
def asI32 : TensorData → Except AccessError (Array Int32)
  | .i32 values => .ok values
  | other => .error (.viewTypes .i32 other.dtype)

/-- The elements as bytes. -/
def asU8 : TensorData → Except AccessError (Array UInt8)
  | .u8 values => .ok values
  | other => .error (.viewTypes .u8 other.dtype)

/-- The elements, when they have a type. -/
def ofType (data : TensorData) (dtype : DType) : Except AccessError TensorData :=
  match dtype with
  | .f32 => .f32 <$> data.asF32
  | .i32 => .i32 <$> data.asI32
  | .u8 => .u8 <$> data.asU8

end TensorData

instance : Encode TensorData where
  encode
    | .f32 values => encodeTag 0 ++ encode values.toList
    | .i32 values => encodeTag 1 ++ encode values.toList
    | .u8 values => encodeTag 2 ++ encode values.toList

/-- A tensor: extents and elements.  Nothing ties the two together; `HostTensor.ofDims?` checks
that they agree. -/
structure HostTensor where
  dims : Dims
  /-- The elements, the innermost axis running fastest. -/
  data : TensorData
deriving DecidableEq, Repr, Inhabited

namespace HostTensor

/-- Why elements do not fit extents. -/
inductive ExtentsError where
  /-- The extents have too large a product. -/
  | overflow (dims : Dims)
  /-- The extents need another number of elements. -/
  | wrongLength (dims : Dims) (expected actual : Nat)
deriving DecidableEq, Repr

def ExtentsError.message : ExtentsError → String
  | .overflow dims => s!"tensor extents {dimsText dims} overflow"
  | .wrongLength dims expected actual =>
    s!"tensor extents {dimsText dims} need {expected} elements, got {actual}"

/-- The tensor with these extents, when they need exactly these elements. -/
def ofDims? (dims : Dims) (data : TensorData) : Except ExtentsError HostTensor :=
  match elementCount? dims with
  | none => .error (.overflow dims)
  | some expected =>
    if expected = data.size then .ok ⟨dims, data⟩
    else .error (.wrongLength dims expected data.size)

/-- The tensor with one value everywhere; there is none for extents that cannot be counted. -/
def full? (dims : Dims) (value : F32) : Option HostTensor := do
  return ⟨dims, .f32 (Array.replicate (← elementCount? dims) value)⟩

def dtype (tensor : HostTensor) : DType := tensor.data.dtype

def size (tensor : HostTensor) : Nat := tensor.data.size

/-- Whether the number of elements is the one that the extents need. -/
def WellFormed (tensor : HostTensor) : Prop := elementCount? tensor.dims = some tensor.size

instance (tensor : HostTensor) : Decidable tensor.WellFormed :=
  inferInstanceAs (Decidable (_ = _))

theorem ofDims?_eq_ok_iff {dims : Dims} {data : TensorData} {tensor : HostTensor} :
    ofDims? dims data = .ok tensor ↔ tensor = ⟨dims, data⟩ ∧ tensor.WellFormed := by
  unfold ofDims? WellFormed size
  constructor
  · intro h
    split at h
    · cases h
    · rename_i expected hcount
      split at h
      · cases h; simp_all
      · cases h
  · rintro ⟨rfl, h⟩
    simp [h]

end HostTensor

instance : Encode HostTensor := ⟨fun tensor ↦ encode tensor.dims ++ encode tensor.data⟩

end TensorEngine
