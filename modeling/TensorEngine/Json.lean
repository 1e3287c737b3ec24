import TensorEngine.Size
import TensorEngine.Text.Hex

/-!
# Reading JSON

Readers for the parts of a JSON text that a caller expects, and a reader that passes over a part
that nobody asked for.  Reading stops at the first fault; there are three kinds of it, told apart
by what the text would need: other characters, another value, or more characters.

A part that is passed over is only checked for its form: its numbers may have any size, and the
escapes in its texts need not name characters.
-/

namespace TensorEngine.Json

/-- The kinds of faults. -/
inductive Error where
  /-- No JSON text continues like this. -/
  | malformed
  /-- The value is not one that is asked for. -/
  | mismatch
  /-- The text ends too early. -/
  | incomplete
deriving DecidableEq, Repr

def Error.name : Error → String
  | .malformed => "Syntax"
  | .mismatch => "Data"
  | .incomplete => "Eof"

/-- Reads a part from the front of the characters. -/
abbrev Reader (α : Type) := StateT (List Char) (Except Error) α

/-! ## Characters -/

/-- Whether a character may stand between the parts of a text. -/
def isBlank (c : Char) : Bool := c = ' ' || c = '\n' || c = '\t' || c = '\r'

def isDigit (c : Char) : Bool := '0' ≤ c && c ≤ '9'

def digitValue (c : Char) : Nat := c.toNat - '0'.toNat

def front? : Reader (Option Char) := return (← get).head?

/-- The next character that is not blank. -/
def peek? : Reader (Option Char) := do
  modify (·.dropWhile isBlank)
  front?

/-- Passes over one character. -/
def advance : Reader Unit := modify List.tail

def next : Reader Char := do
  match ← get with
  | [] => throw .incomplete
  | c :: rest =>
    set rest
    return c

def digits : Reader (List Nat) := do
  let chars ← get
  set (chars.dropWhile isDigit)
  return (chars.takeWhile isDigit).map digitValue

/-- Takes a character that has to come next. -/
def expect (c : Char) : Reader Unit := do
  if (← next) ≠ c then throw .malformed

/-- Takes the rest of a word such as `true`. -/
def word (rest : String) : Reader Unit := rest.toList.forM expect

/-! ## Texts -/

/-- How far the reading of a text has come. -/
inductive TextState where
  /-- Between characters. -/
  | plain
  | escape
  /-- Inside the four digits of an escape; `high` is the first half of a pair. -/
  | hex (high : Option Nat) (count value : Nat)
  | pair (high : Nat)
  /-- Behind the first half of a pair and a backslash. -/
  | pairEscape (high : Nat)
deriving DecidableEq, Repr

/-- What one more character of a text leads to. -/
inductive TextStep where
  /-- The text goes on, perhaps with a character more. -/
  | more (state : TextState) (char : Option Char)
  | done
  | fault (error : Error)
deriving DecidableEq, Repr

namespace TextState

/-- The character that a letter behind a backslash stands for. -/
def escaped? : Char → Option Char
  | '"' => some '"'
  | '\\' => some '\\'
  | '/' => some '/'
  | 'b' => some '\x08'
  | 'f' => some '\x0c'
  | 'n' => some '\n'
  | 'r' => some '\r'
  | 't' => some '\t'
  | _ => none

/-- The end of the four digits of an escape.  Two halves of a pair make one character; a half on
its own is a fault unless the text is passed over. -/
def hexDone (strict : Bool) (high : Option Nat) (value : Nat) : TextStep :=
  if !strict then .more .plain none
  else
    match high with
    | some high =>
      if 0xdc00 ≤ value && value ≤ 0xdfff then
        .more .plain (some (Char.ofNat (0x10000 + (high - 0xd800) * 0x400 + (value - 0xdc00))))
      else .fault .malformed
    | none =>
      if 0xdc00 ≤ value && value ≤ 0xdfff then .fault .malformed
      else if 0xd800 ≤ value && value ≤ 0xdbff then .more (.pair value) none
      else .more .plain (some (Char.ofNat value))

/-- One more character; `rest` are the characters from it on. -/
def step (strict : Bool) (state : TextState) (c : Char) (rest : List Char) : TextStep :=
  match state with
  | .plain =>
    if c = '"' then .done
    else if c = '\\' then .more .escape none
    else if c < ' ' then .fault .malformed
    else .more .plain (some c)
  | .escape =>
    if c = 'u' then .more (.hex none 0 0) none
    else
      match escaped? c with
      | some char => .more .plain (some char)
      | none => .fault .malformed
  | .hex high count value =>
    match Text.hexValue? c with
    | some digit =>
      let value := value * 16 + digit
      if count = 3 then hexDone strict high value else .more (.hex high (count + 1) value) none
    | none =>
      -- four bytes are looked at together
      let available := count + (String.ofList rest).utf8ByteSize
      .fault (if available < 4 then .incomplete else .malformed)
  | .pair high => if c = '\\' then .more (.pairEscape high) none else .fault .malformed
  | .pairEscape high => if c = 'u' then .more (.hex (some high) 0 0) none else .fault .malformed

/-- Reads the characters of a text up to its closing quote; `text` are those so far, the last one
first. -/
def readFrom (strict : Bool) (state : TextState) (text : List Char) :
    List Char → Except Error (List Char × List Char)
  | [] => .error .incomplete
  | c :: rest =>
    match state.step strict c (c :: rest) with
    | .fault error => .error error
    | .done => .ok (text.reverse, rest)
    | .more state char => readFrom strict state (char.toList ++ text) rest

end TextState

/-- Reads a text behind its opening quote. -/
def textBody (strict : Bool) : Reader String := fun chars ↦
  (TextState.readFrom strict .plain [] chars).map fun (text, rest) ↦ (String.ofList text, rest)

/-! ## Numbers -/

/-- Passes over the exponent of a number behind its letter. -/
def skipExponent : Reader Unit := do
  if (← front?) = some '+' || (← front?) = some '-' then advance
  if (← digits) = [] then throw .malformed

/-- Passes over a number behind its sign. -/
def skipNumber : Reader Unit := do
  match ← digits with
  | [] => throw .malformed
  | 0 :: _ :: _ => throw .malformed
  | _ => pure ()
  if (← front?) = some '.' then
    advance
    if (← digits) = [] then throw .malformed
  if (← front?) = some 'e' || (← front?) = some 'E' then
    advance
    skipExponent

/-- Appends digits to a number as long as it fits a word; answers how many were left over. -/
def accumulate (value : Nat) : List Nat → Nat × Nat
  | [] => (value, 0)
  | digit :: rest =>
    if value * 10 + digit < Size.wordCount then accumulate (value * 10 + digit) rest
    else (value, rest.length + 1)

/-- Whether `significand · 10 ^ exponent` is too large for a floating-point number. -/
def isHuge (significand : Nat) (exponent : Int) : Bool :=
  significand ≠ 0 && 0 ≤ exponent
    && (308 < exponent
      || (Float.ofNat significand * Float.ofScientific 1 false exponent.toNat).isInf)

/-- Reads the exponent of a number behind its letter. -/
def exponent : Reader Int := do
  let negative := (← front?) = some '-'
  if negative || (← front?) = some '+' then advance
  match ← digits with
  | [] => throw (if (← get) = [] then .incomplete else .malformed)
  | digits =>
    let value : Int := (digits.foldl (fun value digit ↦ value * 10 + digit) 0 : Nat)
    return if negative then -value else value

/-- Reads a number behind its sign; answers its value when it has neither fraction nor exponent
and fits a word. -/
def unsignedNumber : Reader (Option Nat) := do
  let whole ← digits
  match whole with
  | [] => throw (if (← get) = [] then .incomplete else .malformed)
  | 0 :: _ :: _ => throw .malformed
  | _ => pure ()
  let (significand, dropped) := accumulate 0 whole
  let mut significand := significand
  let mut scale : Int := dropped
  let mut isWhole := dropped == 0
  if (← front?) = some '.' then
    advance
    let fraction ← digits
    if fraction = [] then throw (if (← get) = [] then .incomplete else .malformed)
    let (longer, ignored) := accumulate significand fraction
    significand := longer
    scale := scale - (fraction.length - ignored : Nat)
    isWhole := false
  if (← front?) = some 'e' || (← front?) = some 'E' then
    advance
    scale := scale + (← exponent)
    isWhole := false
  if !isWhole && isHuge significand scale then throw .malformed
  return if isWhole then some significand else none

/-- Reads a number; answers its value when it is a natural number that fits a word. -/
def number : Reader (Option Nat) := do
  if (← front?) = some '-' then
    advance
    let _ ← unsignedNumber
    return none
  else unsignedNumber

/-! ## Passing over a value -/

mutual

/-- Passes over a value; the fuel bounds the number of values. -/
def skipValue : (fuel : Nat) → Reader Unit
  | 0 => throw .incomplete
  | fuel + 1 => do
    match ← peek? with
    | none => throw .incomplete
    | some c =>
      if c = '-' then advance; skipNumber
      else if isDigit c then skipNumber
      else
        advance
        match c with
        | 'n' => word "ull"
        | 't' => word "rue"
        | 'f' => word "alse"
        | '"' => let _ ← textBody false
        | '[' => if (← peek?) = some ']' then advance else skipItems fuel
        | '\x7b' => if (← peek?) = some '\x7d' then advance else skipMembers fuel
        | _ => throw .malformed

/-- Passes over the items of a list up to its end. -/
def skipItems : (fuel : Nat) → Reader Unit
  | 0 => throw .incomplete
  | fuel + 1 => do
    if (← peek?).isNone then throw .incomplete
    skipValue fuel
    match ← peek? with
    | none => throw .incomplete
    | some ']' => advance
    | some ',' => advance; skipItems fuel
    | some _ => throw .malformed

/-- Passes over the members of an object up to its end. -/
def skipMembers : (fuel : Nat) → Reader Unit
  | 0 => throw .incomplete
  | fuel + 1 => do
    if (← peek?).isNone then throw .incomplete
    expect '"'
    let _ ← textBody false
    if (← peek?).isNone then throw .incomplete
    expect ':'
    skipValue fuel
    match ← peek? with
    | none => throw .incomplete
    | some '\x7d' => advance
    | some ',' => advance; skipMembers fuel
    | some _ => throw .malformed

end

/-- Passes over a value.  Every step takes a character or opens a part that starts with one, so
twice their number is fuel enough. -/
def skip : Reader Unit := do skipValue (2 * (← get).length + 1)

/-! ## Values of a known type -/

/-- The value is not one that is asked for, unless it is at fault itself. -/
def reject {α : Type} : Reader α := do
  match ← peek? with
  | none => throw .incomplete
  | some c =>
    if c = '-' || isDigit c then
      let _ ← number
    else
      advance
      match c with
      | 'n' => word "ull"
      | 't' => word "rue"
      | 'f' => word "alse"
      | '"' => let _ ← textBody true
      | '[' | '\x7b' => pure ()
      | _ => throw .malformed
    throw .mismatch

/-- Reads a natural number that fits a word. -/
def size : Reader Nat := do
  match ← peek? with
  | none => throw .incomplete
  | some c =>
    if c = '-' || isDigit c then
      match ← number with
      | some value => return value
      | none => throw .mismatch
    else reject

/-- Reads a truth value. -/
def bool : Reader Bool := do
  match ← peek? with
  | some 't' => advance; word "rue"; return true
  | some 'f' => advance; word "alse"; return false
  | _ => reject

def text : Reader String := do
  match ← peek? with
  | some '"' => advance; textBody true
  | _ => reject

/-- Reads `null` or a value. -/
def optional {α : Type} (value : Reader α) : Reader (Option α) := do
  match ← peek? with
  | some 'n' => advance; word "ull"; return none
  | _ => some <$> value

end TensorEngine.Json
