import TensorEngine.Text
import TensorEngine.Wire.Utf8

/-!
# Hexadecimal text

Bytes are written as two hexadecimal digits each, and read back from digits in either case.
-/

namespace TensorEngine.Text

def hexValue? (c : Char) : Option Nat :=
  if '0' ≤ c && c ≤ '9' then some (c.toNat - '0'.toNat)
  else if 'a' ≤ c && c ≤ 'f' then some (c.toNat - 'a'.toNat + 10)
  else if 'A' ≤ c && c ≤ 'F' then some (c.toNat - 'A'.toNat + 10)
  else none

/-- The number that hexadecimal digits spell. -/
def hexNumber? (digits : String) : Option Nat := do
  return (← digits.toList.mapM hexValue?).foldl (fun number digit ↦ number * 16 + digit) 0

def hexBytes (bytes : Bytes) : String :=
  String.ofList (bytes.flatMap fun byte ↦ hexDigits 2 byte.toNat)

/-- The bytes of digits; there have to be two for each. -/
def ofHexDigits? : List Char → Option Bytes
  | [] => some []
  | [_] => none
  | high :: low :: rest => do
    let byte := (← hexValue? high) * 16 + (← hexValue? low)
    return UInt8.ofNat byte :: (← ofHexDigits? rest)

def hexBytes? (digits : String) : Option Bytes := ofHexDigits? digits.toList

end TensorEngine.Text
