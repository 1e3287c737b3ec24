/-!
# Reading UTF-8

`Utf8.decode` turns bytes into text.  Bytes that are no text are refused with the position of the
first byte that does not belong to a character and the number of bytes that spoil it; there is no
such number when the bytes merely end inside a character.
-/

namespace TensorEngine

abbrev Bytes := List UInt8

namespace Utf8

/-- Why bytes are not text. -/
structure Error where
  /-- The number of bytes in front that are text. -/
  validUpTo : Nat
  /-- How many bytes are wrong there; none when the bytes end too early. -/
  invalidLength : Option Nat
deriving DecidableEq, Repr

def Error.message (error : Error) : String :=
  match error.invalidLength with
  | some length =>
    s!"invalid utf-8 sequence of {length} bytes from index {error.validUpTo}"
  | none => s!"incomplete utf-8 byte sequence from index {error.validUpTo}"

/-- Continuation bytes are those from `0x80` to `0xbf`. -/
def isContinuation (byte : UInt8) : Bool := 0x80 ≤ byte && byte ≤ 0xbf

/-- The second bytes that may follow the first byte of a character of three bytes: neither an
overlong form nor a surrogate. -/
def isSecondOfThree (first second : UInt8) : Bool :=
  if first = 0xe0 then 0xa0 ≤ second && second ≤ 0xbf
  else if first = 0xed then 0x80 ≤ second && second ≤ 0x9f
  else isContinuation second

/-- The second bytes that may follow the first byte of a character of four bytes: neither an
overlong form nor beyond the last character. -/
def isSecondOfFour (first second : UInt8) : Bool :=
  if first = 0xf0 then 0x90 ≤ second && second ≤ 0xbf
  else if first = 0xf4 then 0x80 ≤ second && second ≤ 0x8f
  else isContinuation second

/-- The character whose bits are the low bits of the first byte followed by six bits of each
further byte. -/
def assemble (first : Nat) (rest : List UInt8) : Char :=
  Char.ofNat (rest.foldl (fun bits byte ↦ bits * 64 + byte.toNat % 64) first)

/-- Reads characters from position `index` on. -/
def decodeFrom (index : Nat) : Bytes → Except Error (List Char)
  | [] => .ok []
  | first :: rest =>
    if first < 0x80 then do
      return Char.ofNat first.toNat :: (← decodeFrom (index + 1) rest)
    else if 0xc2 ≤ first && first ≤ 0xdf then
      match rest with
      | [] => .error ⟨index, none⟩
      | second :: rest =>
        if isContinuation second then do
          return assemble (first.toNat % 32) [second] :: (← decodeFrom (index + 2) rest)
        else .error ⟨index, some 1⟩
    else if 0xe0 ≤ first && first ≤ 0xef then
      match rest with
      | [] => .error ⟨index, none⟩
      | second :: rest =>
        if isSecondOfThree first second then
          match rest with
          | [] => .error ⟨index, none⟩
          | third :: rest =>
            if isContinuation third then do
              return assemble (first.toNat % 16) [second, third]
                :: (← decodeFrom (index + 3) rest)
            else .error ⟨index, some 2⟩
        else .error ⟨index, some 1⟩
    else if 0xf0 ≤ first && first ≤ 0xf4 then
      match rest with
      | [] => .error ⟨index, none⟩
      | second :: rest =>
        if isSecondOfFour first second then
          match rest with
          | [] => .error ⟨index, none⟩
          | third :: rest =>
            if isContinuation third then
              match rest with
              | [] => .error ⟨index, none⟩
              | fourth :: rest =>
                if isContinuation fourth then do
                  return assemble (first.toNat % 8) [second, third, fourth]
                    :: (← decodeFrom (index + 4) rest)
                else .error ⟨index, some 3⟩
            else .error ⟨index, some 2⟩
        else .error ⟨index, some 1⟩
    else .error ⟨index, some 1⟩

def decode (bytes : Bytes) : Except Error String :=
  String.ofList <$> decodeFrom 0 bytes

def encode (text : String) : Bytes := text.toUTF8.data.toList

end Utf8

end TensorEngine
