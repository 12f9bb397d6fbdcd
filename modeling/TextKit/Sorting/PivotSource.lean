import TextKit.Number.Word

/-!
# The source of pivots

Pivots are chosen by a xorshift generator on 64-bit words. The step is injective
and only zero is mapped to zero, so a state that is not zero never becomes zero;
the seed zero is therefore replaced by another one.

Slots are selected with natural numbers. The same computation in words of 64 bits
is refused where an operation leaves their range, which does not happen for a span
that is not empty.
-/

namespace TextKit.Sorting

/-- A generator, given by its state. -/
structure PivotSource where
  state : UInt64
  deriving DecidableEq, Repr

namespace PivotSource

/-- The state that stands in for the seed zero. -/
def zeroSubstitute : UInt64 := 0x9E3779B97F4A7C15

/-- The generator of a seed. -/
def ofSeed (seed : UInt64) : PivotSource := ⟨if seed = 0 then zeroSubstitute else seed⟩

/-- The state after a given one. -/
def step (x : UInt64) : UInt64 :=
  let x := x ^^^ (x <<< 13)
  let x := x ^^^ (x >>> 7)
  x ^^^ (x <<< 17)

/-- The generator one step further on. -/
def advance (source : PivotSource) : PivotSource := ⟨step source.state⟩

/-- The slot that the current state selects from `start` up to, excluding, `stop`. -/
def select (source : PivotSource) (start stop : Nat) : Nat :=
  start + source.state.toNat % (stop - start)

theorem start_le_select (source : PivotSource) (start stop : Nat) :
    start ≤ source.select start stop :=
  Nat.le_add_right ..

theorem select_lt_stop (source : PivotSource) {start stop : Nat} (h : start < stop) :
    source.select start stop < stop := by
  have := Nat.mod_lt source.state.toNat (Nat.sub_pos_of_lt h)
  unfold select
  omega

/-- The slot that the current state selects, computed in words. -/
def selectWord? (source : PivotSource) (start stop : UInt64) : Option UInt64 :=
  (Word.difference? stop start).bind fun size =>
    (Word.remainder? source.state size).bind (Word.sum? start)

end PivotSource
end TextKit.Sorting
