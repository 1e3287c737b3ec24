import TensorEngine.Text
import TensorEngine.Wire.Utf8

/-!
# The wire format

Values are written one field after the other in their declared order:

| value | bytes |
|---|---|
| word | fixed width, least significant byte first |
| truth value | one byte, `0` or `1` |
| constructor | its position in four bytes, then its fields |
| optional value | one byte, `0` or `1`, then the value |
| text, sequence | its length in eight bytes, then its items |

A reader returns the value together with the bytes that follow it, so what comes after a value is
never looked at.

A constructor without fields belongs to an enumerated type, whose values are listed in a fixed
order.  The position of a value in the list is its tag on the wire and its rank wherever values are
compared.
-/

namespace TensorEngine

/-! ## Enumerated types -/

/-- A type whose values are listed once each. -/
class Enumerated (α : Type) [BEq α] where
  values : List α

namespace Enumerated

variable {α : Type} [BEq α] [Enumerated α]

def tag (value : α) : Nat := (values : List α).idxOf value

def ofTag? (tag : Nat) : Option α := (values : List α)[tag]?

def count (α : Type) [BEq α] [Enumerated α] : Nat := (values : List α).length

end Enumerated

namespace Wire

/-- Why bytes could not be read. -/
inductive Error where
  | truncated
  /-- The bytes end inside a text. -/
  | truncatedText
  /-- There is no constructor at this position; there are `count` of them. -/
  | unknownVariant (tag count : Nat)
  /-- A truth value is neither `0` nor `1`. -/
  | invalidBool (byte : UInt8)
  /-- A text is not UTF-8. -/
  | invalidText (error : Utf8.Error)
  /-- A sequence claims more items than any memory can hold. -/
  | capacityOverflow
  /-- A sequence of words claims items for which there is no room: so many bytes were asked for. -/
  | noRoom (bytes : Nat)
deriving DecidableEq, Repr

def Error.message : Error → String
  | .truncated => "io error: unexpected end of file"
  | .truncatedText => "io error: "
  | .unknownVariant tag count =>
    "invalid value: integer `" ++ toString tag ++ "`, expected variant index 0 <= i < "
      ++ toString count
  | .invalidBool byte =>
    s!"invalid u8 while decoding bool, expected 0 or 1, found {byte.toNat}"
  | .invalidText error => s!"string is not valid utf8: {error.message}"
  | .capacityOverflow => "Allocation error: CapacityOverflow"
  | .noRoom bytes =>
    "Allocation error: AllocErr \x7b layout: Layout \x7b size: " ++ toString bytes
      ++ ", align: 8 (1 << 3) \x7d \x7d"

/-- Reads a value from the front of the bytes. -/
abbrev Reader (α : Type) := StateT Bytes (Except Error) α

/-- A type with a written form. -/
class Encode (α : Type) where
  encode : α → Bytes

/-- A type that can be read back. -/
class Decode (α : Type) where
  read : Reader α

export Encode (encode)

/-- Reads one value and ignores what follows it. -/
def decode {α : Type} [Decode α] (bytes : Bytes) : Except Error α :=
  (Decode.read.run bytes).map Prod.fst

/-! ## Words -/

/-- The low `width` bytes of a number, least significant first. -/
def littleEndian : (width : Nat) → Nat → Bytes
  | 0, _ => []
  | width + 1, n => UInt8.ofNat n :: littleEndian width (n / 256)

/-- The number with these bytes, least significant first. -/
def ofLittleEndian : Bytes → Nat
  | [] => 0
  | byte :: bytes => byte.toNat + 256 * ofLittleEndian bytes

@[simp] theorem length_littleEndian (width n : Nat) : (littleEndian width n).length = width := by
  induction width generalizing n with
  | zero => rfl
  | succ width ih => simp [littleEndian, ih]

/-- How many numbers `width` bytes can tell apart. -/
def wordRange : (width : Nat) → Nat
  | 0 => 1
  | width + 1 => 256 * wordRange width

/-- A number that fits reads back. -/
theorem ofLittleEndian_littleEndian {width n : Nat} (h : n < wordRange width) :
    ofLittleEndian (littleEndian width n) = n := by
  induction width generalizing n with
  | zero => simp only [wordRange] at h; simp only [littleEndian, ofLittleEndian]; omega
  | succ width ih =>
    have hn : n / 256 < wordRange width := Nat.div_lt_of_lt_mul h
    simp only [littleEndian, ofLittleEndian, ih hn, UInt8.toNat_ofNat']
    omega

/-- Takes `count` bytes, or fails in the given way when there are fewer. -/
def readBytes (count : Nat) (short : Error) : Reader Bytes := fun bytes ↦
  if count ≤ bytes.length then .ok (bytes.take count, bytes.drop count) else .error short

/-- Reads a number of `width` bytes. -/
def readWord (width : Nat) : Reader Nat := ofLittleEndian <$> readBytes width .truncated

instance : Encode UInt8 := ⟨fun byte ↦ [byte]⟩
instance : Encode UInt32 := ⟨fun word ↦ littleEndian 4 word.toNat⟩
instance : Encode UInt64 := ⟨fun word ↦ littleEndian 8 word.toNat⟩
instance : Encode Int32 := ⟨fun word ↦ littleEndian 4 word.toUInt32.toNat⟩

instance : Decode UInt32 := ⟨UInt32.ofNat <$> readWord 4⟩
instance : Decode UInt64 := ⟨UInt64.ofNat <$> readWord 8⟩

def encodeLength (length : Nat) : Bytes := littleEndian 8 length

/-! ## Truth values and optional values -/

instance : Encode Bool := ⟨fun b ↦ [if b then 1 else 0]⟩

instance : Decode Bool where
  read := do
    match ← readWord 1 with
    | 0 => return false
    | 1 => return true
    | byte => throw (.invalidBool (UInt8.ofNat byte))

instance {α : Type} [Encode α] : Encode (Option α) where
  encode
    | none => [0]
    | some value => 1 :: encode value

/-! ## Constructors -/

/-- The four bytes in front of the fields of a constructor. -/
def encodeTag (tag : Nat) : Bytes := littleEndian 4 tag

/-- Reads the position of a constructor. -/
def readTag : Reader Nat := readWord 4

instance (priority := low) {α : Type} [BEq α] [Enumerated α] : Encode α :=
  ⟨fun value ↦ encodeTag (Enumerated.tag value)⟩

instance (priority := low) {α : Type} [BEq α] [Enumerated α] : Decode α where
  read := do
    let tag ← readTag
    match Enumerated.ofTag? tag with
    | some value => return value
    | none => throw (.unknownVariant tag (Enumerated.count α))

/-! ## Text and sequences -/

instance : Encode String where
  encode text :=
    let bytes := Utf8.encode text
    encodeLength bytes.length ++ bytes

instance : Decode String where
  read := do
    let bytes ← readBytes (← readWord 8) .truncatedText
    match Utf8.decode bytes with
    | .ok text => return text
    | .error error => throw (.invalidText error)

def encodeItems {α : Type} [Encode α] (items : List α) : Bytes := items.flatMap encode

instance {α : Type} [Encode α] : Encode (List α) where
  encode items := encodeLength items.length ++ encodeItems items

/-- Reads `count` items; it stops at the first one that cannot be read. -/
def readItems {α : Type} [Decode α] : (count : Nat) → Reader (List α)
  | 0 => return []
  | count + 1 => do
    let item ← Decode.read
    return item :: (← readItems count)

instance {α : Type} [Decode α] : Decode (List α) where
  read := do readItems (← readWord 8)

instance {α β : Type} [Encode α] [Encode β] : Encode (α × β) where
  encode pair := encode pair.1 ++ encode pair.2

instance {α β : Type} [Decode α] [Decode β] : Decode (α × β) where
  read := return (← Decode.read, ← Decode.read)

end Wire

end TensorEngine
