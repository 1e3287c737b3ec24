import TensorEngine.Wire

/-!
# Fingerprints

The FNV-1a hash of a string of bytes, in 64 bits.  A fingerprint of several values hashes their
frames: each value is preceded by the length of its bytes, so neighbouring values cannot run
together.
-/

namespace TensorEngine.Fingerprint

open Wire

/-- The hash of no bytes. -/
def start : UInt64 := 0xcbf29ce484222325

def factor : UInt64 := 0x100000001b3

def step (hash : UInt64) (byte : UInt8) : UInt64 := (hash ^^^ byte.toUInt64) * factor

def extend (hash : UInt64) (bytes : Bytes) : UInt64 := bytes.foldl step hash

/-- The hash of a string of bytes. -/
def ofBytes (bytes : Bytes) : UInt64 := extend start bytes

def frame (bytes : Bytes) : Bytes := encodeLength bytes.length ++ bytes

/-- The frame of a value's written form. -/
def frameOf {α : Type} [Encode α] (value : α) : Bytes := frame (encode value)

def frameText (text : String) : Bytes := frame (Utf8.encode text)

def ofValue {α : Type} [Encode α] (value : α) : UInt64 := ofBytes (frameOf value)

@[simp] theorem extend_nil (hash : UInt64) : extend hash [] = hash := rfl

@[simp] theorem extend_append (hash : UInt64) (left right : Bytes) :
    extend hash (left ++ right) = extend (extend hash left) right := List.foldl_append

end TensorEngine.Fingerprint
