import TensorEngine.Config
import TensorEngine.Size

/-!
# Configurations from variables

Settings may be given by named variables.  Blank characters around a value do not count, a blank
value counts as none, and a number that cannot be read is ignored.
-/

namespace TensorEngine.Text

def isBlank (c : Char) : Bool :=
  let code := c.toNat
  (9 ≤ code && code ≤ 13) || code = 0x20 || code = 0x85 || code = 0xa0 || code = 0x1680
    || (0x2000 ≤ code && code ≤ 0x200a) || code = 0x2028 || code = 0x2029 || code = 0x202f
    || code = 0x205f || code = 0x3000

/-- The characters without the blank ones at either end. -/
def trimList (chars : List Char) : List Char :=
  ((chars.dropWhile isBlank).reverse.dropWhile isBlank).reverse

/-- The text without the blank characters at either end. -/
def trim (text : String) : String := String.ofList (trimList text.toList)

end TensorEngine.Text

namespace TensorEngine.RuntimeConfig

/-- The words that mean yes, whatever the case of their letters. -/
def affirmative : List String := ["1", "true", "yes", "on"]

def meansYes (value : String) : Bool := (Text.trim value).toLower ∈ affirmative

/-- The number of decimal digits; at least one is needed, and the number has to fit a word. -/
def digitsValue? (digits : List Char) : Option Nat :=
  if digits = [] || !digits.all Char.isDigit then none
  else
    let value := digits.foldl (fun value c ↦ value * 10 + (c.toNat - '0'.toNat)) 0
    if value < Size.wordCount then some value else none

/-- The number that a value spells, perhaps with a plus sign in front. -/
def sizeValue? (value : String) : Option Nat :=
  match (Text.trim value).toList with
  | '+' :: digits => digitsValue? digits
  | digits => digitsValue? digits

/-- The defaults, changed by the variables that are set. -/
def ofVariables (given : String → Option String) : RuntimeConfig :=
  let value (name : String) : Option String :=
    (given name).filter fun value ↦ Text.trim value ≠ ""
  let size (name : String) : Option Nat := (value name).bind sizeValue?
  let defaults : RuntimeConfig := {}
  { streams := ((size "PRIMRT_STREAMS").map (max · 1)).getD defaults.streams
    implCacheCapacity := (size "PRIMRT_IMPL_CACHE").getD defaults.implCacheCapacity
    artifactCache := ((value "PRIMRT_ARTIFACT_CACHE").map meansYes).getD defaults.artifactCache
    artifactDir := (value "PRIMRT_ARTIFACT_DIR").map Text.trim
    maxPoolBytes := size "PRIMRT_MAX_POOL_BYTES" }

end TensorEngine.RuntimeConfig
