import TextKit.Sorting.Draft
import TextKit.Sorting.PivotSource

/-!
# A sort in progress

A sort advances only as far as items are asked for. Its state holds an
arrangement of which a front part is final, and the spans behind that part which
have not been sorted yet, nearest first. To produce an item when none is ready,
the nearest span is visited: a small one is sorted and becomes ready, and a large
one is partitioned and replaced by its three parts, of which the middle one is
the pivot. A visit to a span thus never touches the spans behind it.

Each visit is recorded with its comparisons, so that the work done so far can be
read off the state. A span of `k` slots takes at most `visitBound k` visits, which
is also why producing an item terminates.
-/

namespace TextKit.Sorting

/-- Spans of at most this size are sorted by insertion. -/
def insertionSortThreshold : Nat := 9

/-- What was done with a pending span. -/
structure Visit (n : Nat) where
  span : Span n
  /-- The pivot, if the span was partitioned rather than sorted. -/
  pivot : Option (Fin n)
  comparisons : Array (Fin n × Fin n)

/-- The state of a sort of `n` items. -/
structure Progress (α : Type) (n : Nat) where
  /-- The items by place. One that has been produced is no longer there. -/
  items : Vector (Option α) n
  slots : Arrangement n
  source : PivotSource
  /-- The spans still to be visited, nearest first. -/
  pending : List (Span n)
  /-- The slots that are final and whose items are next. -/
  ready : Span n
  /-- How many items have not been produced. -/
  remaining : Nat
  /-- The visits made, oldest first. -/
  visits : Array (Visit n)

/-- How many visits a span of `size` slots can take, with all its parts. -/
def visitBound (size : Nat) : Nat := 3 * (size - insertionSortThreshold) + 1

/-- How many visits some spans can take together. -/
def visitBounds {n : Nat} : List (Span n) → Nat
  | [] => 0
  | span :: rest => visitBound span.size + visitBounds rest

@[simp] theorem visitBounds_cons {n : Nat} (span : Span n) (rest : List (Span n)) :
    visitBounds (span :: rest) = visitBound span.size + visitBounds rest := rfl

namespace Progress

variable {α : Type} {n : Nat}

/-- The state before anything is asked for. -/
def start (items : Vector α n) (source : PivotSource) : Progress α n where
  items := items.map some
  slots := .identity n
  source := source
  pending := [Span.full n]
  ready := Span.empty n
  remaining := n
  visits := #[]

/-- The number of visits that the pending spans can still take. -/
def visitsAhead (s : Progress α n) : Nat := visitBounds s.pending

/-- A slot that is ready is one of the `n`. -/
theorem ready_start_lt (s : Progress α n) (h : s.ready.start < s.ready.stop) : s.ready.start < n :=
  Nat.lt_of_lt_of_le h s.ready.stop_le

/-- Sort a span, which becomes ready; `rest` stays pending. -/
def settle (order : Fin n → Fin n → Ordering) (span : Span n) (rest : List (Span n))
    (s : Progress α n) : Progress α n :=
  let d := Draft.insertionSort order span ⟨s.slots, #[]⟩
  { s with
    slots := d.slots
    pending := rest
    ready := span
    visits := s.visits.push ⟨span, none, d.comparisons⟩ }

/-- Partition a span around the pivot that the source selects next. -/
def cut (order : Fin n → Fin n → Ordering) (span : Span n) (h : span.start < span.stop)
    (s : Progress α n) : Draft n × { slot : Nat // span.start ≤ slot ∧ slot < span.stop } :=
  let source := s.source.advance
  Draft.partition order span (source.select span.start span.stop)
    ⟨source.start_le_select .., source.select_lt_stop h⟩ ⟨s.slots, #[]⟩

/-- Partition a span. Its parts are pending in front of `rest`. -/
def split (order : Fin n → Fin n → Ordering) (span : Span n) (h : span.start < span.stop)
    (rest : List (Span n)) (s : Progress α n) : Progress α n :=
  let cut := s.cut order span h
  let slot := cut.2
  have hslot : slot.val < n := Nat.lt_of_lt_of_le slot.property.2 span.stop_le
  { s with
    slots := cut.1.slots
    source := s.source.advance
    pending := span.before slot.val slot.property :: span.single slot.val slot.property ::
      span.after slot.val slot.property :: rest
    visits := s.visits.push ⟨span, some cut.1.slots[slot.val], cut.1.comparisons⟩ }

/-- Visit the nearest pending span. -/
def visit (order : Fin n → Fin n → Ordering) (span : Span n) (rest : List (Span n))
    (s : Progress α n) : Progress α n :=
  if h : span.size ≤ insertionSortThreshold then s.settle order span rest
  else s.split order span (by unfold Span.size at h; omega) rest

theorem visitsAhead_of_pending {span : Span n} {rest : List (Span n)} {s : Progress α n}
    (h : s.pending = span :: rest) :
    s.visitsAhead = visitBound span.size + visitBounds rest := by
  rw [visitsAhead, h, visitBounds_cons]

theorem visitsAhead_settle (order : Fin n → Fin n → Ordering) (span : Span n)
    (rest : List (Span n)) (s : Progress α n) :
    (s.settle order span rest).visitsAhead = visitBounds rest := rfl

theorem visitsAhead_split_lt (order : Fin n → Fin n → Ordering) (span : Span n)
    (h : span.start < span.stop) (large : insertionSortThreshold < span.size)
    (rest : List (Span n)) (s : Progress α n) :
    (s.split order span h rest).visitsAhead < visitBound span.size + visitBounds rest := by
  simp only [split, visitsAhead, visitBounds_cons, Span.size_before, Span.size_single,
    Span.size_after]
  generalize (s.cut order span h).2 = slot
  obtain ⟨slot, hslot⟩ := slot
  simp only [visitBound, insertionSortThreshold, Span.size] at large ⊢
  omega

/-- Every visit leaves fewer visits ahead. -/
theorem visitsAhead_visit_lt (order : Fin n → Fin n → Ordering) {span : Span n}
    {rest : List (Span n)} {s : Progress α n} (h : s.pending = span :: rest) :
    (s.visit order span rest).visitsAhead < s.visitsAhead := by
  rw [visitsAhead_of_pending h, visit]
  split
  · rw [visitsAhead_settle]
    simp only [visitBound]
    omega
  · exact visitsAhead_split_lt order span _ (by omega) rest s

/-- Give up the first ready slot and the item whose place stands in it. -/
def release (s : Progress α n) (h : s.ready.start < s.ready.stop) : Progress α n :=
  have hslot := s.ready_start_lt h
  { s with
    ready := s.ready.after s.ready.start ⟨Nat.le_refl _, h⟩
    items := s.items.set s.slots[s.ready.start] none }

/-- Give up the first ready slot because its item is produced. -/
def produce (s : Progress α n) (h : s.ready.start < s.ready.stop) : Progress α n :=
  { s.release h with remaining := s.remaining - 1 }

/-- The next item in order, and the state after producing it. Without items left,
nothing is produced. -/
def next (order : Fin n → Fin n → Ordering) (s : Progress α n) : Option α × Progress α n :=
  if h : s.ready.start < s.ready.stop then
    have hslot := s.ready_start_lt h
    match s.items[s.slots[s.ready.start]] with
    | some item => (some item, s.produce h)
    | none => next order (s.release h)
  else
    match hpending : s.pending with
    | [] => (none, s)
    | span :: rest => next order (s.visit order span rest)
termination_by (s.visitsAhead, s.ready.size)
decreasing_by
  · refine Prod.Lex.right _ ?_
    rw [release, Span.size_after]
    simp only [Span.size]
    omega
  · exact Prod.Lex.left _ _ (visitsAhead_visit_lt order hpending)

end Progress
end TextKit.Sorting
