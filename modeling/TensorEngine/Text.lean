/-!
# Text forms

Messages show values in a few fixed forms: lists in brackets, pairs in parentheses, records with
named fields, optional values as `Some(…)` or `None`, quoted strings and words of sixteen
hexadecimal digits.
-/

namespace TensorEngine.Text

/-- A bracketed list: `[a, b]`. -/
def list (items : List String) : String := "[" ++ ", ".intercalate items ++ "]"

/-- A parenthesised list: `(a, b)`. -/
def tuple (items : List String) : String := "(" ++ ", ".intercalate items ++ ")"

/-- A constructor applied to its arguments: `Name(a, b)`. -/
def applied (name : String) (items : List String) : String := name ++ tuple items

/-- An optional value: `Some(a)` or `None`. -/
def option : Option String → String
  | some item => applied "Some" [item]
  | none => "None"

/-- A truth value: `true` or `false`. -/
def bool : Bool → String
  | true => "true"
  | false => "false"

/-- The fields of a record: `a: 1, b: 2`. -/
def fields (items : List (String × String)) : String :=
  ", ".intercalate (items.map fun (name, value) ↦ name ++ ": " ++ value)

/-- A record with all its fields shown: `Name \x7b a: 1, b: 2 \x7d` with braces. -/
def record (name : String) (items : List (String × String)) : String :=
  name ++ " \x7b " ++ fields items ++ " \x7d"

/-- A record of which further fields are not shown; two dots stand for them. -/
def openRecord (name : String) (items : List (String × String)) : String :=
  name ++ " \x7b " ++ fields items ++ ", .. \x7d"

/-- The lower-case hexadecimal digit of a number below sixteen. -/
def hexDigit (n : Nat) : Char :=
  if n < 10 then Char.ofNat (48 + n) else Char.ofNat (87 + n)

/-- The last `width` hexadecimal digits of a number, most significant first. -/
def hexDigits : (width : Nat) → Nat → List Char
  | 0, _ => []
  | width + 1, n => hexDigits width (n / 16) ++ [hexDigit (n % 16)]

/-- A word as sixteen hexadecimal digits. -/
def hexWord (word : UInt64) : String := String.ofList (hexDigits 16 word.toNat)

end TensorEngine.Text
