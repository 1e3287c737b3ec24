import TensorEngine.Wire

/-!
# Scalars

Elements of tensors are floating-point numbers of 32 bits, integers of 32 bits or bytes.  A
floating-point number is kept as its bits, so two of them are equal exactly when their bits are;
its arithmetic is the machine's.  The integers are `Int32` and `UInt8`, whose sums, differences and
products wrap.
-/

namespace TensorEngine

/-- A floating-point number of 32 bits. -/
structure F32 where
  /-- The sign bit, eight bits of exponent and 23 bits of fraction. -/
  bits : UInt32
deriving DecidableEq, Repr, Inhabited

namespace F32

/-- The number as the machine calculates with it. -/
def toFloat32 (x : F32) : Float32 := Float32.ofBits x.bits

/-- The bits of a machine number. -/
def ofFloat32 (x : Float32) : F32 := ⟨x.toBits⟩

/-- The number nearest to an integer. -/
def ofInt (n : Int) : F32 := ofFloat32 (Float32.ofInt n)

instance : Zero F32 := ⟨⟨0⟩⟩
instance : Add F32 := ⟨fun x y ↦ ofFloat32 (x.toFloat32 + y.toFloat32)⟩
instance : Sub F32 := ⟨fun x y ↦ ofFloat32 (x.toFloat32 - y.toFloat32)⟩
instance : Mul F32 := ⟨fun x y ↦ ofFloat32 (x.toFloat32 * y.toFloat32)⟩
instance : Div F32 := ⟨fun x y ↦ ofFloat32 (x.toFloat32 / y.toFloat32)⟩

/-- Flips the sign. -/
instance : Neg F32 := ⟨fun x ↦ ⟨x.bits ^^^ 0x80000000⟩⟩

def abs (x : F32) : F32 := ⟨x.bits &&& 0x7fffffff⟩

/-- Below every other number. -/
def negInfinity : F32 := ⟨0xff800000⟩

/-- The canonical value that is no number. -/
def canonicalNaN : F32 := ⟨0x7fc00000⟩

/-- All exponent bits set and some fraction bit set: no number. -/
def isNaN (x : F32) : Bool := 0x7f800000 < x.bits &&& 0x7fffffff

/-- The same number with one representative for all values that are no numbers. -/
def canonical (x : F32) : F32 := if x.isNaN then canonicalNaN else x

/-- The larger number; an operand that is no number is ignored. -/
def max (x y : F32) : F32 :=
  if x.isNaN then y
  else if y.isNaN then x
  else if x.toFloat32 < y.toFloat32 then y else x

/-- The smaller number; an operand that is no number is ignored. -/
def min (x y : F32) : F32 :=
  if x.isNaN then y
  else if y.isNaN then x
  else if y.toFloat32 < x.toFloat32 then y else x

/-- The exponential, rounded from its value in 64 bits. -/
def exp (x : F32) : F32 := ofFloat32 (Float.exp x.toFloat32.toFloat).toFloat32

/-- The hyperbolic tangent, rounded from its value in 64 bits. -/
def tanh (x : F32) : F32 := ofFloat32 (Float.tanh x.toFloat32.toFloat).toFloat32

end F32

instance : Wire.Encode F32 := ⟨fun x ↦ Wire.encode x.bits⟩

end TensorEngine
