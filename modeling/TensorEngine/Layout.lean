import TensorEngine.Size
import TensorEngine.Wire

/-!
# Layouts

A layout declares what a tensor looks like: the type of its elements, how they are arranged and
its shape, in which each axis has a fixed extent, an extent within a range or any extent.  One
invocation gives every axis a concrete extent.
-/

namespace TensorEngine

open Wire

abbrev Extent := UInt64

/-- Concrete extents of a tensor, one per axis. -/
abbrev Dims := List Extent

/-- Types of elements. -/
inductive DType where
  | f32
  | i32
  | u8
deriving DecidableEq, Repr, Inhabited

namespace DType

instance : Enumerated DType := ⟨[.f32, .i32, .u8]⟩

def all : List DType := Enumerated.values

def name : DType → String
  | .f32 => "F32"
  | .i32 => "I32"
  | .u8 => "U8"

/-- Bytes per element. -/
def sizeInBytes : DType → Nat
  | .f32 | .i32 => 4
  | .u8 => 1

/-- Whether elements are floating-point numbers. -/
def isFloat : DType → Bool
  | .f32 => true
  | .i32 | .u8 => false

end DType

/-- How elements are arranged; `any` leaves it open. -/
inductive Format where
  | any
  | rowMajor
  | nhwc
  | blocked16
deriving DecidableEq, Repr, Inhabited

namespace Format

instance : Enumerated Format := ⟨[.any, .rowMajor, .nhwc, .blocked16]⟩

def all : List Format := Enumerated.values

def name : Format → String
  | .any => "Any"
  | .rowMajor => "RowMajor"
  | .nhwc => "Nhwc"
  | .blocked16 => "Blocked16"

/-- Whether a consumer that asks for `requested` can take the format without reordering. -/
def satisfies (format requested : Format) : Bool := format = requested || format = .any

end Format

/-- The declared extent of one axis. -/
inductive Dim where
  | fixed (extent : Extent)
  | range (min max : Extent)
  | unbounded
deriving DecidableEq, Repr, Inhabited

namespace Dim

def isFixed : Dim → Bool
  | .fixed _ => true
  | .range _ _ | .unbounded => false

/-- Whether a concrete extent is admitted. -/
def contains : Dim → Extent → Bool
  | .fixed value, extent => value = extent
  | .range min max, extent => min ≤ extent && extent ≤ max
  | .unbounded, _ => true

/-- The largest admitted extent, when there is one. -/
def upperBound? : Dim → Option Extent
  | .fixed value => some value
  | .range _ max => some max
  | .unbounded => none

def fixed? : Dim → Option Extent
  | .fixed value => some value
  | .range _ _ | .unbounded => none

/-- The text of an axis: `4`, `1..8` or `?`. -/
def text : Dim → String
  | .fixed value => toString value
  | .range min max => toString min ++ ".." ++ toString max
  | .unbounded => "?"

end Dim

instance : Encode Dim where
  encode
    | .fixed value => encodeTag 0 ++ encode value
    | .range min max => encodeTag 1 ++ encode min ++ encode max
    | .unbounded => encodeTag 2

/-! ## Counting elements -/

/-- The number of elements, multiplied up axis by axis; none when some step leaves the words. -/
def elementCount? (dims : Dims) : Option Nat :=
  dims.foldlM (fun count extent ↦ Size.mul? count extent.toNat) 1

/-- The text of extents: `[2, 3]`. -/
def dimsText (dims : Dims) : String := Text.list (dims.map toString)

/-- The text of several lists of extents: `[[2, 3], [4]]`. -/
def shapesText (shapes : List Dims) : String := Text.list (shapes.map dimsText)

/-- The extents that are kept without a block of their own. -/
def inPlaceExtents : Nat := 4

/-- The largest number of extents whose block any memory could hold. -/
def maxExtents : Nat := 0x800000000000000

/-- The bytes of the block for more extents than are kept in place: eight for each, and room for a
power of two of them. -/
def extentBlock (count : Nat) : Nat := 8 * count.nextPowerOfTwo

/-- Makes room for extents on a host that grants blocks of up to `granted` bytes. -/
def reserveExtents (granted count : Nat) : Except Wire.Error Unit :=
  if count ≤ inPlaceExtents then .ok ()
  else if maxExtents < count then .error .capacityOverflow
  else if granted < extentBlock count then .error (.noRoom (extentBlock count))
  else .ok ()

/-- Room is made for all extents before the first one is read, on a usual host.  Unless the written
form is longer than such a block, a host that grants more only refuses the extents a little later,
at the end of the bytes. -/
instance (priority := high) : Decode Dims where
  read := do
    let count ← readWord 8
    reserveExtents Size.hostBlock count
    readItems count

/-- A declared shape; the number of axes is fixed. -/
structure Shape where
  /-- The axes, outermost first. -/
  dims : List Dim
deriving DecidableEq, Repr, Inhabited

namespace Shape

def ofDims (dims : Dims) : Shape := ⟨dims.map .fixed⟩

def rank (shape : Shape) : Nat := shape.dims.length

def isStatic (shape : Shape) : Bool := shape.dims.all Dim.isFixed

def staticDims? (shape : Shape) : Option Dims := shape.dims.mapM Dim.fixed?

/-- Whether concrete extents have the right number and each is admitted by its axis. -/
def accepts (shape : Shape) (dims : Dims) : Bool :=
  dims.length = shape.dims.length && (shape.dims.zip dims).all fun (dim, extent) ↦
    dim.contains extent

/-- The largest number of elements of the shape, when every axis is bounded and no step of the
product leaves the words. -/
def maxElementCount? (shape : Shape) : Option Nat :=
  shape.dims.foldlM (fun count dim ↦ do Size.mul? count (← dim.upperBound?).toNat) 1

/-- The text of a shape: `[2x1..8x?]`. -/
def text (shape : Shape) : String := "[" ++ "x".intercalate (shape.dims.map Dim.text) ++ "]"

end Shape

instance : Encode Shape := ⟨fun shape ↦ encode shape.dims⟩

/-- Shape, element type and arrangement of one tensor. -/
structure Layout where
  shape : Shape
  dtype : DType
  format : Format
deriving DecidableEq, Repr, Inhabited

namespace Layout

def ofDims (dtype : DType) (dims : Dims) : Layout := ⟨.ofDims dims, dtype, .rowMajor⟩

def withFormat (layout : Layout) (format : Format) : Layout := { layout with format }

def isStatic (layout : Layout) : Bool := layout.shape.isStatic

/-- The same element type and format with every axis pinned. -/
def concretize (layout : Layout) (dims : Dims) : Layout := { layout with shape := .ofDims dims }

/-- The elements that a buffer needs for every admitted invocation. -/
def capacity? (layout : Layout) : Option Nat := layout.shape.maxElementCount?

/-- The text of a layout: `F32[2x?]/RowMajor`. -/
def text (layout : Layout) : String :=
  layout.dtype.name ++ layout.shape.text ++ "/" ++ layout.format.name

/-- The text of several layouts: `(a, b)`. -/
def texts (layouts : List Layout) : String := Text.tuple (layouts.map text)

end Layout

instance : Encode Layout where
  encode layout := encode layout.shape ++ encode layout.dtype ++ encode layout.format

end TensorEngine
