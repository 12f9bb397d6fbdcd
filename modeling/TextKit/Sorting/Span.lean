/-!
# Spans of slots

A span is a run of consecutive slots among `n`, given by its first slot and the
slot after its last. Spans may be empty.
-/

namespace TextKit.Sorting

/-- The slots from `start` up to, excluding, `stop`. -/
structure Span (n : Nat) where
  start : Nat
  stop : Nat
  start_le_stop : start ≤ stop := by omega
  stop_le : stop ≤ n := by omega
  deriving DecidableEq, Repr

namespace Span

variable {n : Nat}

/-- The span of all slots. -/
def full (n : Nat) : Span n where
  start := 0
  stop := n

/-- The span before the first slot. -/
def empty (n : Nat) : Span n where
  start := 0
  stop := 0

/-- The number of slots. -/
def size (s : Span n) : Nat := s.stop - s.start

/-- The slots of a span in front of one of them. -/
def before (s : Span n) (slot : Nat) (h : s.start ≤ slot ∧ slot < s.stop) : Span n where
  start := s.start
  stop := slot
  start_le_stop := h.1
  stop_le := by have := s.stop_le; omega

/-- The span of one slot. -/
def single (s : Span n) (slot : Nat) (h : s.start ≤ slot ∧ slot < s.stop) : Span n where
  start := slot
  stop := slot + 1
  start_le_stop := by omega
  stop_le := by have := s.stop_le; omega

/-- The slots of a span behind one of them. -/
def after (s : Span n) (slot : Nat) (h : s.start ≤ slot ∧ slot < s.stop) : Span n where
  start := slot + 1
  stop := s.stop
  start_le_stop := h.2
  stop_le := s.stop_le

@[simp] theorem size_full : (full n).size = n := rfl

@[simp] theorem size_before (s : Span n) (slot : Nat) (h : s.start ≤ slot ∧ slot < s.stop) :
    (s.before slot h).size = slot - s.start := rfl

@[simp] theorem size_single (s : Span n) (slot : Nat) (h : s.start ≤ slot ∧ slot < s.stop) :
    (s.single slot h).size = 1 := by
  simp [single, size]

@[simp] theorem size_after (s : Span n) (slot : Nat) (h : s.start ≤ slot ∧ slot < s.stop) :
    (s.after slot h).size = s.stop - (slot + 1) := rfl

end Span
end TextKit.Sorting
