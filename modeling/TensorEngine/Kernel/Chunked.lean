import TensorEngine.Kernel

/-!
# Chunked kernels

Floating-point kernels that cut the result and the operands into chunks and treat each chunk on
its own, so chunks may run side by side.  Chunks are paired from the front; what has no partner
stays as it is.
-/

namespace TensorEngine.Kernel

variable {α β : Type}

/-- The items cut into runs of `size`; the last may be shorter. -/
def chunks (size : Nat) (items : List α) : List (List α) :=
  if size = 0 ∨ items.length = 0 then []
  else items.take size :: chunks size (items.drop size)
termination_by items.length
decreasing_by
  simp only [List.length_drop]
  omega

/-- Replaces each item that has a partner by what a function makes of the two. -/
def updateWith (update : α → β → α) : List α → List β → List α
  | old :: olds, source :: sources => update old source :: updateWith update olds sources
  | olds, [] => olds
  | [], _ :: _ => []

/-- Runs over a result of which each chunk belongs to a chunk of some source. -/
def overChunks (update : List α → β → List α) (size : Nat) (out : Array α) (sources : List β) :
    Array α :=
  (updateWith update (chunks size out.toList) sources).flatten.toArray

/-- The fault of a run that asks for chunks of no items. -/
def emptyChunks : Fault := .panicked "chunk_size must not be zero"

/-- Applies a function to pairs of elements, chunk by chunk. -/
def zipWithChunked (apply : F32 → F32 → F32) (chunk : Nat) (lhs rhs out : Array F32) :
    Outcome (Array F32) :=
  if lhs.size ≠ out.size ∨ rhs.size ≠ out.size then
    .refuse (.execution "binary operand lengths disagree") out
  else if chunk = 0 then ⟨.error emptyChunks, out⟩
  else
    let operands := (chunks chunk lhs.toList).zip (chunks chunk rhs.toList)
    ⟨.ok (), overChunks
      (fun old (left, right) ↦ updateWith (fun _ (x, y) ↦ apply x y) old (left.zip right))
      chunk out operands⟩

/-- Applies a function to every element, chunk by chunk. -/
def mapChunked (apply : F32 → F32) (chunk : Nat) (input out : Array F32) :
    Outcome (Array F32) :=
  if input.size ≠ out.size then .refuse (.execution "unary operand length disagrees") out
  else if chunk = 0 then ⟨.error emptyChunks, out⟩
  else
    ⟨.ok (), overChunks (updateWith fun _ x ↦ apply x) chunk out (chunks chunk input.toList)⟩

/-- The elements that belong to one chunk of results, when there are `size` results. -/
def rowsOfChunk (chunk inner size length : Nat) : Except Fault Nat := do
  if length ≠ (← times size inner) then
    throw (.refused (.execution "reduce operand length disagrees"))
  else if inner = 0 then return 0
  else if chunk = 0 then throw emptyChunks
  else times chunk inner

/-- Reduces rows of `inner` elements, chunk by chunk; a chunk of results belongs to as many rows.
Rows without elements all reduce to the same value. -/
def reduceChunked (row : Array F32 → F32) (chunk inner : Nat) (input out : Array F32) :
    Outcome (Array F32) :=
  .ofResult (do
    let length ← rowsOfChunk chunk inner out.size input.size
    if inner = 0 then return out.map fun _ ↦ row #[]
    else
      return overChunks
        (fun old rows ↦ updateWith (fun _ items ↦ row items.toArray) old (chunks inner rows))
        chunk out (chunks length input.toList)) out

end TensorEngine.Kernel
