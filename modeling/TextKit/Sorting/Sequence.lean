import TextKit.Sorting.Level
import TextKit.Sorting.Progress

/-!
# Lazily sorted sequences

A sequence is a description: items, a chain of levels, and possibly a seed for
the choice of pivots. Describing it sorts nothing. Starting it computes the keys
and gives a sorted stream, from which items are taken one at a time.

With consistent levels the items come in the stable order of the chain, which
does not depend on the seed; the seed only fixes which comparisons are made. A
sequence without a seed uses one that is supplied when it is started.
-/

namespace TextKit.Sorting

/-- Items with the order in which to produce them. -/
structure Sequence (α : Type) where
  items : List α
  /-- The most important level first. -/
  levels : List (Level α)
  seed : Option UInt64 := none

/-- A sequence that has been started. -/
structure Sorted (α : Type) where
  {size : Nat}
  chain : Chain size
  progress : Progress α size

namespace Sequence

variable {α : Type}

/-- Order items by one level. -/
def orderBy (items : List α) (level : Level α) : Sequence α where
  items := items
  levels := [level]

/-- Order items that tie on all levels so far by one more. -/
def thenBy (s : Sequence α) (level : Level α) : Sequence α :=
  { s with levels := s.levels ++ [level] }

/-- Fix the seed. -/
def withSeed (s : Sequence α) (seed : UInt64) : Sequence α := { s with seed := some seed }

/-- The number of levels. -/
def levelCount (s : Sequence α) : Nat := s.levels.length

/-- How many keys are computed on each level when the sequence is started. A
level of which no key is computed is not listed. -/
def keyCounts (s : Sequence α) : List Nat :=
  (s.levels.map fun _ => s.items.length).filter (0 < ·)

/-- The items by place. -/
def source (s : Sequence α) : Vector α s.items.length := ⟨s.items.toArray, List.size_toArray⟩

/-- Compute the keys and begin to sort, with `seed` unless one is fixed. -/
def start (s : Sequence α) (seed : UInt64) : Sorted α where
  chain := .ofLevels s.levels s.source
  progress := .start s.source (.ofSeed (s.seed.getD seed))

end Sequence

/-- One use of the comparison of a level: its number, counted from zero, and the
places of the two items. -/
structure LevelCall where
  level : Nat
  left : Nat
  right : Nat
  deriving DecidableEq, Repr

namespace Sorted

variable {α : Type}

/-- The next item, and the rest of the stream. -/
def next (s : Sorted α) : Option α × Sorted α :=
  let (item?, progress) := s.progress.next s.chain.order
  (item?, { s with progress := progress })

/-- The number of items left. -/
def length (s : Sorted α) : Nat := s.progress.remaining

/-- Bounds for the number of items left. -/
def sizeHint (s : Sorted α) : Nat × Option Nat := (s.length, some s.length)

/-- Take up to `n` items after those in `taken`. -/
def takeOnto (taken : Array α) : Nat → Sorted α → List α × Sorted α
  | 0, s => (taken.toList, s)
  | n + 1, s =>
    match s.next with
    | (none, s') => (taken.toList, s')
    | (some item, s') => takeOnto (taken.push item) n s'

/-- The next `n` items, or all that are left, and the rest of the stream. -/
def take (n : Nat) (s : Sorted α) : List α × Sorted α := takeOnto #[] n s

/-- Take items until there are none. -/
def drain (s : Sorted α) : List α × Sorted α := s.take (s.length + 1)

/-- The comparisons made by the visits from number `first` on. -/
def comparisonsFrom (s : Sorted α) (first : Nat) : List (Fin s.size × Fin s.size) :=
  (s.progress.visits.toList.drop first).flatMap (·.comparisons.toList)

/-- The level comparisons made by the visits from number `first` on. Comparing two
places asks the levels in turn, up to the first that does not tie. -/
def levelCallsFrom (s : Sorted α) (first : Nat) : List LevelCall :=
  (s.comparisonsFrom first).flatMap fun (l, r) =>
    (List.range (s.chain.asked l r)).map fun level => ⟨level, l.val, r.val⟩

end Sorted
end TextKit.Sorting
