/-!
# Sizes that fit a word

Counts of elements and bytes are natural numbers that have to stay below `2 ^ 64`.  Two products
are used: `mul?` refuses a result that does not fit and `saturatingMul` clamps it to the largest
word.  Where nothing was prepared for a result that does not fit, the run breaks down with the
message `overflowMessage`.
-/

namespace TensorEngine.Size

/-- The number of words; a size is a natural number below it. -/
def wordCount : Nat := 0x10000000000000000

def maxWord : Nat := wordCount - 1

/-- The largest number of bytes that one block of memory may span. -/
def maxBlock : Nat := 0x7fffffffffffffff

/-- The number of bytes that a host usually grants to one block of memory. -/
def hostBlock : Nat := 0x400000000

def mul? (a b : Nat) : Option Nat := if a * b < wordCount then some (a * b) else none

def add? (a b : Nat) : Option Nat := if a + b < wordCount then some (a + b) else none

/-- The product, or the largest word when it does not fit. -/
def saturatingMul (a b : Nat) : Nat := min (a * b) maxWord

/-- What a run says that breaks down at a product that does not fit a word. -/
def overflowMessage : String := "attempt to multiply with overflow"

/-- The quotient rounded up. -/
def ceilDiv (a b : Nat) : Nat := (a + b - 1) / b

theorem mul?_eq_some_iff {a b p : Nat} : mul? a b = some p ↔ a * b = p ∧ p < wordCount := by
  simp only [mul?]
  split <;> simp_all
  · rintro rfl; omega
  · rintro rfl; omega

theorem mul?_of_le {a b : Nat} (h : wordCount ≤ a * b) : mul? a b = none := if_neg (Nat.not_lt.2 h)

end TensorEngine.Size
