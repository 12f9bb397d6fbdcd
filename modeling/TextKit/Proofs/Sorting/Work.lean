import Mathlib.Logic.Function.Iterate
import TextKit.Proofs.Sorting.Production

/-!
# The work of draining a stream

A visit takes a span away from those that are pending, and a partition puts three others in its
place. So the visits made and the spans still pending are together one more than three times the
partitions, and each partition has drawn one pivot.

The lengths of the spans do not bound the partitions by themselves: a partition leaves as many slots
pending as before, and two of its three parts may be empty. But the pivot is alone in its part,
which is not partitioned again, so what the parts can take in further visits is less than what the
span could take. This holds for the worst pivots and for comparators that answer anything.
-/

namespace TextKit.Sorting

variable {α : Type} {n : Nat}

theorem length_le_visitBounds (spans : List (Span n)) : spans.length ≤ visitBounds spans := by
  induction spans with
  | nil => exact Nat.le_refl 0
  | cons span rest ih =>
      rw [List.length_cons, visitBounds_cons, visitBound]
      omega

namespace Progress

/-- The number of spans that have been partitioned. -/
def partitions (s : Progress α n) : Nat := s.visits.countP (·.pivot.isSome)

/-- The visits made so far agree with the spans that are pending and with the pivots drawn from
a source, and those ahead do not add up to more than there could be from the start. -/
structure Accounted (source : PivotSource) (s : Progress α n) : Prop where
  visited : s.visits.size + s.pending.length = 1 + 3 * s.partitions
  drawn : s.source = PivotSource.advance^[s.partitions] source
  ahead : s.visits.size + s.visitsAhead ≤ visitBound n

theorem accounted_start (items : Vector α n) (source : PivotSource) :
    (start items source).Accounted source where
  visited := rfl
  drawn := rfl
  ahead := by simp [start, visitsAhead, visitBounds]

/-- A call that returns nothing leaves nothing pending. -/
theorem pending_of_next_eq_none {order : Fin n → Fin n → Ordering} {s : Progress α n}
    (h : (s.next order).1 = none) : (s.next order).2.pending = [] := by
  fun_induction Progress.next order s with
  | case1 s hready hslot item hitem => cases h
  | case2 s hready hslot hitem ih => exact ih h
  | case3 s spent hpending => exact hpending
  | case4 s spent span rest hpending ih => exact ih h

section Visit

variable (order : Fin n → Fin n → Ordering) (span : Span n) (rest : List (Span n))
variable (s : Progress α n)

theorem partitions_settle : (s.settle order span rest).partitions = s.partitions := by
  simp [partitions, settle]

theorem partitions_split (hspan : span.start < span.stop) :
    (s.split order span hspan rest).partitions = s.partitions + 1 := by
  simp [partitions, split]

theorem size_visits_settle : (s.settle order span rest).visits.size = s.visits.size + 1 :=
  Array.size_push _

theorem size_visits_split (hspan : span.start < span.stop) :
    (s.split order span hspan rest).visits.size = s.visits.size + 1 :=
  Array.size_push _

theorem length_pending_settle : (s.settle order span rest).pending.length = rest.length := rfl

theorem length_pending_split (hspan : span.start < span.stop) :
    (s.split order span hspan rest).pending.length = rest.length + 3 := rfl

end Visit

namespace Accounted

variable {order : Fin n → Fin n → Ordering} {items : Vector α n} {s t : Progress α n}
variable {source : PivotSource} {span : Span n} {rest : List (Span n)}

theorem settle (h : s.Accounted source) (nearest : s.pending = span :: rest) :
    (s.settle order span rest).Accounted source where
  visited := by
    have hvisited := h.visited
    rw [nearest, List.length_cons] at hvisited
    rw [partitions_settle, size_visits_settle, length_pending_settle]
    omega
  drawn := by
    rw [partitions_settle]
    exact h.drawn
  ahead := by
    have hahead := h.ahead
    rw [visitsAhead_of_pending nearest, visitBound] at hahead
    rw [size_visits_settle, visitsAhead_settle]
    omega

theorem split (h : s.Accounted source) (nearest : s.pending = span :: rest)
    (hspan : span.start < span.stop) (hlarge : insertionSortThreshold < span.size) :
    (s.split order span hspan rest).Accounted source where
  visited := by
    have hvisited := h.visited
    rw [nearest, List.length_cons] at hvisited
    rw [partitions_split, size_visits_split, length_pending_split]
    omega
  drawn := by
    rw [partitions_split, Function.iterate_succ_apply', ← h.drawn]
    rfl
  ahead := by
    have hahead := h.ahead
    have hless := visitsAhead_split_lt order span hspan hlarge rest s
    rw [visitsAhead_of_pending nearest] at hahead
    rw [size_visits_split]
    omega

/-- Passes keep the account. -/
theorem passes (h : s.Accounted source) (hs : s.Consistent items) (hpasses : Passes order s t) :
    t.Accounted source := by
  refine hs.induction h ?_ ?_ ?_ hpasses
  · intro s hready _ h
    exact ⟨h.visited, h.drawn, h.ahead⟩
  · intro s span rest _ nearest _ _ h
    exact h.settle nearest
  · intro s span rest _ nearest _ _ hspan hlarge h
    exact h.split nearest hspan hlarge

/-- The spans that are pending take a visit each, so the partitions made are already bounded. -/
theorem partitions_le (h : s.Accounted source) : s.partitions ≤ n - insertionSortThreshold := by
  have hvisited := h.visited
  have hahead := h.ahead
  have hpending : s.pending.length ≤ s.visitsAhead := length_le_visitBounds s.pending
  unfold visitBound at hahead
  omega

end Accounted

end Progress

namespace Sorted

variable {s : Sorted α}

/-- Items are taken by one call after another, up to the first that returns nothing. -/
theorem takeOnto_state {m : Nat} (h : ∀ k < m, (s.after k).next.1 ≠ none) (taken : Array α) :
    (takeOnto taken (m + 1) s).2 = s.after (m + 1) := by
  induction m generalizing s taken with
  | zero =>
      rw [takeOnto]
      split
      · rename_i s' hnext
        exact (congrArg Prod.snd hnext).symm
      · rename_i item s' hnext
        exact (congrArg Prod.snd hnext).symm
  | succ m ih =>
      rw [takeOnto]
      split
      · rename_i s' hnext
        exact absurd (congrArg Prod.fst hnext) (h 0 (Nat.succ_pos m))
      · rename_i item s' hnext
        obtain rfl : s.next.2 = s' := congrArg Prod.snd hnext
        rw [ih, after_next]
        intro k hk
        rw [after_next]
        exact h (k + 1) (Nat.succ_lt_succ hk)

end Sorted

namespace Sequence

variable (sequence : Sequence α) (clock : UInt64)

theorem size_after_start (k : Nat) :
    ((sequence.start clock).after k).size = sequence.items.length := by
  rw [Sorted.after_eq]
  rfl

theorem accounted_after (k : Nat) : ((sequence.start clock).after k).progress.Accounted
    (.ofSeed (sequence.seed.getD clock)) := by
  have hs := sequence.initial_consistent clock
  rw [Sorted.after_eq]
  exact (Progress.accounted_start _ _).passes hs (hs.passes_after sequence.order (Nat.zero_le k))

theorem next_eq_none_iff (k : Nat) :
    ((sequence.start clock).after k).next.1 = none ↔ sequence.items.length ≤ k := by
  rw [sequence.next_after_start clock k]
  split
  · rename_i hlt
    simp only [reduceCtorEq, false_iff]
    omega
  · rename_i hle
    simp only [true_iff]
    omega

theorem drain_state : (sequence.start clock).drain.2 =
    (sequence.start clock).after (sequence.items.length + 1) := by
  have hlength : (sequence.start clock).length = sequence.items.length :=
    sequence.length_after_start clock 0
  rw [Sorted.drain, Sorted.take, hlength]
  apply Sorted.takeOnto_state
  intro k hk
  rw [Ne, sequence.next_eq_none_iff clock]
  exact Nat.not_le_of_lt hk

/-- Whatever the comparators answer, a stream is drained by one call for each item and one more,
which returns nothing. Until then it has made at most as many partitions as there are items beyond
the nine that are sorted by insertion, has drawn a pivot for each of them, and has visited one span
and three for each partition. Nothing is left to be visited. -/
theorem drain_work_bounded :
    (∀ k, ((sequence.start clock).after k).next.1 = none ↔ sequence.items.length ≤ k) ∧
    (sequence.start clock).drain.2 = (sequence.start clock).after (sequence.items.length + 1) ∧
    (sequence.start clock).drain.2.progress.pending = [] ∧
    (sequence.start clock).drain.2.progress.partitions ≤ sequence.items.length - 9 ∧
    (sequence.start clock).drain.2.progress.source =
      PivotSource.advance^[(sequence.start clock).drain.2.progress.partitions]
        (.ofSeed (sequence.seed.getD clock)) ∧
    (sequence.start clock).drain.2.progress.visits.size =
      1 + 3 * (sequence.start clock).drain.2.progress.partitions := by
  have haccounted := sequence.accounted_after clock (sequence.items.length + 1)
  have hempty : ((sequence.start clock).after (sequence.items.length + 1)).progress.pending = [] :=
    Progress.pending_of_next_eq_none ((sequence.next_eq_none_iff clock _).mpr (Nat.le_refl _))
  have hbound : ((sequence.start clock).after (sequence.items.length + 1)).progress.partitions ≤
      sequence.items.length - 9 := by
    apply haccounted.partitions_le.trans
    rw [sequence.size_after_start clock, insertionSortThreshold]
  have hvisited := haccounted.visited
  rw [hempty, List.length_nil, Nat.add_zero] at hvisited
  refine ⟨sequence.next_eq_none_iff clock, sequence.drain_state clock, ?_⟩
  rw [sequence.drain_state clock]
  exact ⟨hempty, hbound, haccounted.drawn, hvisited⟩

end Sequence

end TextKit.Sorting
