import TextKit.Sorting.Direction

/-!
# Levels of an order

A level says which key of an item counts, how two keys compare, and in which
direction. Its keys are computed once for all items of a sequence before
anything is sorted; the items are then compared by their places in the sequence,
which are numbers below its length.

A chain of levels asks them in turn until one does not tie. Items that tie on
every level compare by their places. This makes every sort that follows the
chain stable, whatever the directions.
-/

namespace TextKit.Sorting

/-- One criterion of an order on `α`. -/
structure Level (α : Type) where
  {Key : Type}
  /-- The key of an item. -/
  key : α → Key
  /-- The order of two keys, which need not be consistent. -/
  compare : Key → Key → Ordering
  direction : Direction

/-- A level with the keys of the `n` items of a sequence. -/
structure KeyedLevel (n : Nat) where
  {Key : Type}
  keys : Vector Key n
  compare : Key → Key → Ordering
  direction : Direction

/-- Compute the keys of all items. -/
def Level.keyed {α : Type} {n : Nat} (level : Level α) (items : Vector α n) : KeyedLevel n where
  keys := items.map level.key
  compare := level.compare
  direction := level.direction

/-- The order of two places by the level alone. -/
def KeyedLevel.order {n : Nat} (level : KeyedLevel n) (l r : Fin n) : Ordering :=
  level.compare level.keys[l] level.keys[r]

/-- The levels of an order, the most important first. -/
abbrev Chain (n : Nat) := List (KeyedLevel n)

namespace Chain

variable {n : Nat}

/-- The chain of the given levels over a sequence. -/
def ofLevels {α : Type} (levels : List (Level α)) (items : Vector α n) : Chain n :=
  levels.map (·.keyed items)

/-- The order of two places by the whole chain. -/
def order : Chain n → Fin n → Fin n → Ordering
  | [], l, r => compare l.val r.val
  | level :: rest, l, r =>
    match level.order l r with
    | .eq => order rest l r
    | o => level.direction.apply o

theorem order_cons_of_ne {level : KeyedLevel n} {l r : Fin n} (rest : Chain n)
    (h : level.order l r ≠ .eq) :
    order (level :: rest) l r = level.direction.apply (level.order l r) := by
  rw [order]
  split
  · contradiction
  · rfl

theorem order_cons_of_eq {level : KeyedLevel n} {l r : Fin n} (rest : Chain n)
    (h : level.order l r = .eq) : order (level :: rest) l r = order rest l r := by
  rw [order, h]

/-- How many levels are asked for the order of two places. -/
def asked : Chain n → Fin n → Fin n → Nat
  | [], _, _ => 0
  | level :: rest, l, r =>
    match level.order l r with
    | .eq => asked rest l r + 1
    | _ => 1

end Chain
end TextKit.Sorting
