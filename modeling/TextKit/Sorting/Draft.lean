import TextKit.Sorting.Span

/-!
# Rearranging a span

A draft is an arrangement of `n` places in `n` slots together with the
comparisons that were asked for while it was made, oldest first. Two operations
rearrange one span of it and leave the other slots alone.

Insertion sort takes the slots from left to right and moves each place to the
left until the one before it does not compare greater. Partitioning moves a
chosen pivot to the end, sweeps the span once to collect at its front the places
that do not compare greater than the pivot, and puts the pivot behind them.

Neither relies on the comparison being consistent: it is only a function, and
the slots stay in range by the type of the arrangement.
-/

namespace TextKit.Sorting

/-- Which place stands in each slot. -/
abbrev Arrangement (n : Nat) := Vector (Fin n) n

/-- The arrangement in which every place stands in its own slot. -/
def Arrangement.identity (n : Nat) : Arrangement n := Vector.ofFn id

/-- An arrangement in the making. -/
structure Draft (n : Nat) where
  slots : Arrangement n
  /-- The comparisons asked for, left operand first. -/
  comparisons : Array (Fin n × Fin n)

namespace Draft

variable {n : Nat}

/-- Exchange two slots. -/
def swap (d : Draft n) (i j : Nat) (hi : i < n) (hj : j < n) : Draft n :=
  { d with slots := d.slots.swap i j }

/-- Put a place into a slot. -/
def put (d : Draft n) (slot : Nat) (h : slot < n) (place : Fin n) : Draft n :=
  { d with slots := d.slots.set slot place }

/-- Note a comparison. -/
def note (d : Draft n) (l r : Fin n) : Draft n :=
  { d with comparisons := d.comparisons.push (l, r) }

/-- Move the slots before `slot` to the right, as far down as `start`, while they
compare greater than `value`, which takes the last slot so freed. -/
def insert (order : Fin n → Fin n → Ordering) (start : Nat) (value : Fin n) :
    (slot : Nat) → slot < n → Draft n → Draft n
  | 0, h, d => d.put 0 h value
  | k + 1, h, d =>
    if start ≤ k then
      let previous := d.slots[k]
      match order previous value with
      | .gt =>
        insert order start value k (by omega) ((d.note previous value).put (k + 1) h previous)
      | _ => (d.note previous value).put (k + 1) h value
    else d.put (k + 1) h value

/-- Insert the slots from `index` on among those from `start` on before them. -/
def insertFrom (order : Fin n → Fin n → Ordering) (start stop : Nat) (hstop : stop ≤ n)
    (index : Nat) (d : Draft n) : Draft n :=
  if h : index < stop then
    insertFrom order start stop hstop (index + 1)
      (insert order start d.slots[index] index (by omega) d)
  else d
termination_by stop - index

/-- Sort a span by insertion. -/
def insertionSort (order : Fin n → Fin n → Ordering) (span : Span n) (d : Draft n) : Draft n :=
  insertFrom order span.start span.stop span.stop_le (span.start + 1) d

/-- Sweep the slots from `index` to `last`. The slots from `start` to `store` hold
places that do not compare greater than `pivot`, those from `store` to `index`
places that do. Returns where the former end. -/
def sweep (order : Fin n → Fin n → Ordering) (pivot : Fin n) (start last : Nat) (hlast : last < n)
    (store index : Nat) (hstore : start ≤ store ∧ store ≤ index) (hindex : index ≤ last)
    (d : Draft n) : Draft n × { slot : Nat // start ≤ slot ∧ slot ≤ last } :=
  if h : index < last then
    let place := d.slots[index]
    let d := d.note place pivot
    match order place pivot with
    | .gt => sweep order pivot start last hlast store (index + 1) (by omega) h d
    | _ =>
      sweep order pivot start last hlast (store + 1) (index + 1) (by omega) h
        (d.swap index store (by omega) (by omega))
  else (d, ⟨store, by omega⟩)
termination_by last - index

/-- Partition a span that is not empty around the place in one of its slots.
Returns the slot in which that place stands afterwards. -/
def partition (order : Fin n → Fin n → Ordering) (span : Span n) (pivotSlot : Nat)
    (hpivot : span.start ≤ pivotSlot ∧ pivotSlot < span.stop) (d : Draft n) :
    Draft n × { slot : Nat // span.start ≤ slot ∧ slot < span.stop } :=
  have hstop := span.stop_le
  let last := span.stop - 1
  have hlast : last < n := by omega
  let d := d.swap pivotSlot last (by omega) hlast
  let swept := sweep order d.slots[last] span.start last hlast span.start span.start
    (by omega) (by omega) d
  let store := swept.2
  (swept.1.swap store.val last (by have := store.property; omega) hlast,
    ⟨store.val, by have := store.property; omega⟩)

end Draft
end TextKit.Sorting
