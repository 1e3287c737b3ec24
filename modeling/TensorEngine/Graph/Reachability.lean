import TensorEngine.Graph

/-!
# What must run before what

For each place of a graph the set of places from which a chain of operand edges leads to it.  A set
of places is packed into words: the place `p` is the bit `p % 64` of the word `p / 64`.
-/

namespace TensorEngine

/-- A set of places as the bits of words. -/
abbrev PlaceSet := List UInt64

namespace PlaceSet

def wordBits : Nat := 64

/-- The words that the places below `size` take; there is always at least one. -/
def wordsFor (size : Nat) : Nat := max (Size.ceilDiv size wordBits) 1

/-- No places, with room for those of some words. -/
def empty (words : Nat) : PlaceSet := List.replicate words 0

def add (set : PlaceSet) (place : Nat) : PlaceSet :=
  set.modify (place / wordBits) (· ||| 1 <<< UInt64.ofNat (place % wordBits))

/-- All places of another set as well, as far as there are words for them. -/
def absorb : PlaceSet → PlaceSet → PlaceSet
  | word :: words, other :: others => (word ||| other) :: absorb words others
  | words, _ => words

def holds (set : PlaceSet) (place : Nat) : Bool :=
  set.getD (place / wordBits) 0 >>> UInt64.ofNat (place % wordBits) &&& 1 = 1

end PlaceSet

structure Reachability where
  words : Nat
  ancestors : List PlaceSet
deriving DecidableEq, Repr, Inhabited

namespace Reachability

open PlaceSet

/-- One more producer together with its ancestors, which are in its row. -/
def withProducer (rows : List PlaceSet) (set : PlaceSet) (producer : Nat) : PlaceSet :=
  (set.add producer).absorb (rows.getD producer [])

/-- The producers of a node's operands together with their ancestors, of which `rows` holds those
of all earlier places. -/
def row (words : Nat) (rows : List PlaceSet) (producers : List Nat) : PlaceSet :=
  producers.foldl (withProducer rows) (PlaceSet.empty words)

def ofGraph (graph : Graph) : Reachability :=
  let words := wordsFor graph.size
  ⟨words, graph.nodes.foldl (fun rows node ↦ rows ++ [row words rows (graph.producers node)]) []⟩

/-- Whether `earlier` has to be completed before `later`, a place of the graph, starts.  Nothing
behind the last word has to. -/
def happensBefore (reach : Reachability) (earlier later : Nat) : Bool :=
  earlier / wordBits < reach.words && (reach.ancestors.getD later []).holds earlier

end Reachability

end TensorEngine
