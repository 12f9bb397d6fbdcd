import Mathlib
import TextKit.Proofs.Sorting.StableSort

/-!
# What the state of a stream represents

After any number of calls the fields of the state agree with each other. The arrangement has
every place once. The items that are gone are those whose places stand in the slots up to the
number of items produced, and the other slots are tiled, without a gap or an overlap, by the
slots that are ready and the pending spans from the nearest on. Spans may be empty.

So far nothing depends on what the comparators answer. If they are consistent, the tiles are
also separated from each other: whatever is produced or stands in an earlier tile is smaller
than everything in a later one.
-/

namespace TextKit.Sorting

variable {α : Type} {n : Nat}

/-- A tile ends before any later one begins. -/
theorem Tiles.pairwise {slot : Nat} {spans : List (Span n)} (h : Tiles slot spans) :
    spans.Pairwise fun t u => t.stop ≤ u.start := by
  induction spans generalizing slot with
  | nil => exact .nil
  | cons span rest ih =>
      obtain ⟨-, hrest⟩ := h
      exact .cons (fun u hu => hrest.le_start hu) (ih hrest)

namespace Progress

/-- The fields of a state of which `made` items have been produced agree with each other. -/
structure Represents (items : Vector α n) (made : Nat) (s : Progress α n) : Prop where
  bijective : Function.Bijective s.slots.place
  remaining_le : s.remaining ≤ n
  made_eq : made = n - s.remaining
  gone_iff : ∀ p, s.items.get p = none ↔
    ∃ i : Fin n, i.val < n - s.remaining ∧ s.slots.place i = p
  kept : ∀ p item, s.items.get p = some item → item = items.get p
  tiles : Tiles (n - s.remaining) (s.ready :: s.pending)

/-- What is produced, or stands in an earlier tile, is smaller than what stands in a later
tile. -/
structure Separates (order : Fin n → Fin n → Ordering) (s : Progress α n) : Prop where
  produced_lt : ∀ i : Fin n, i.val < n - s.remaining → ∀ u ∈ s.ready :: s.pending, ∀ j : Fin n,
    u.start ≤ j.val → j.val < u.stop → order (s.slots.place i) (s.slots.place j) = .lt
  tiles_lt : (s.ready :: s.pending).Pairwise fun t u => ∀ i j : Fin n,
    t.start ≤ i.val → i.val < t.stop → u.start ≤ j.val → j.val < u.stop →
      order (s.slots.place i) (s.slots.place j) = .lt

/-- What is asserted of a span that is about to be sorted by insertion: it begins right behind
the items produced. -/
def Asserted (span : Span n) (s : Progress α n) : Prop :=
  span.size ≤ insertionSortThreshold → s.remaining ≤ n ∧ span.start = n - s.remaining

instance (span : Span n) (s : Progress α n) : Decidable (s.Asserted span) :=
  inferInstanceAs (Decidable (_ → _))

/-- A call for the next item that is given up as soon as the assertion fails. -/
def nextAsserting (order : Fin n → Fin n → Ordering) (s : Progress α n) :
    Option (Option α × Progress α n) :=
  if h : s.ready.start < s.ready.stop then
    match s.items.get (s.slots.place (s.front h)) with
    | none => nextAsserting order (s.release h)
    | some item => some (some item, s.produce h)
  else
    match _ : s.pending with
    | span :: rest =>
      if s.Asserted span then nextAsserting order (s.visit order span rest) else none
    | [] => some (none, s)
termination_by (s.visitsAhead, s.ready.size)
decreasing_by
  · refine Prod.Lex.right _ ?_
    rw [release, Span.size_after]
    simp only [Span.size]
    omega
  · exact Prod.Lex.left _ _ (visitsAhead_visit_lt order ‹_›)

variable {order : Fin n → Fin n → Ordering} {items : Vector α n} {s : Progress α n}

/-- The assertion holds whenever a call comes to it. -/
theorem Consistent.nextAsserting_eq (h : s.Consistent items) (order : Fin n → Fin n → Ordering) :
    s.nextAsserting order = some (s.next order) := by
  fun_induction Progress.next order s with
  | case1 s hready hslot item hitem =>
      have hfront : s.items.get (s.slots.place (s.front hready)) = some item := hitem
      rw [nextAsserting, dif_pos hready]
      split
      · rename_i hnone
        exact absurd (hnone.symm.trans hfront) (by simp)
      · rename_i other hother
        obtain rfl : other = item := Option.some.inj (hother.symm.trans hfront)
        rfl
  | case2 s hready hslot hitem ih =>
      exact absurd (hitem.symm.trans (h.present hready).1) (by simp)
  | case3 s spent hpending =>
      rw [nextAsserting, dif_neg spent]
      split
      · rename_i hcons
        exact absurd (hpending.symm.trans hcons) (by simp)
      · rfl
  | case4 s spent span rest hpending ih =>
      have hasserted : s.Asserted span := fun _ => ⟨h.remaining_le, h.pending_start spent hpending⟩
      rw [nextAsserting, dif_neg spent]
      split
      · rename_i hcons
        obtain ⟨rfl, rfl⟩ := List.cons.inj (hpending.symm.trans hcons)
        rw [if_pos hasserted, ih (h.visit spent hpending)]
      · rename_i hnil
        exact absurd (hpending.symm.trans hnil) (by simp)

theorem Consistent.represents (h : s.Consistent items) :
    s.Represents items (n - s.remaining) where
  bijective := Finite.injective_iff_bijective.mp h.injective
  remaining_le := h.remaining_le
  made_eq := rfl
  gone_iff p := by
    obtain ⟨i, rfl⟩ := (Finite.injective_iff_bijective.mp h.injective).surjective p
    simp only [h.injective.eq_iff, exists_eq_right, h.items_eq, produced]
    by_cases hi : i.val < n - s.remaining
    · simp [hi]
    · simp [hi]
  kept p item hitem := by
    obtain ⟨i, rfl⟩ := (Finite.injective_iff_bijective.mp h.injective).surjective p
    rw [h.items_eq] at hitem
    split at hitem
    · cases hitem
    · exact (Option.some.inj hitem).symm
  tiles := h.tiles

/-- Places in different slots that may not be exchanged are in strict order. -/
theorem lt_of_isLE (distinct : ∀ l r, order l r = .eq → l = r)
    (hinj : Function.Injective s.slots.place) {i j : Fin n} (hij : i.val < j.val)
    (hle : (order (s.slots.place i) (s.slots.place j)).isLE = true) :
    order (s.slots.place i) (s.slots.place j) = .lt := by
  obtain hlt | heq := Ordering.isLE_iff_eq_lt_or_eq_eq.mp hle
  · exact hlt
  · exact absurd (hinj (distinct _ _ heq)) (Fin.ne_of_lt hij)

theorem Ordered.separates (h : s.Ordered order) (hs : s.Consistent items)
    (distinct : ∀ l r, order l r = .eq → l = r) : s.Separates order where
  produced_lt i hi u hu j hlo hhi := by
    have hstart : s.ready.start = n - s.remaining := hs.ready_start
    have hle := hs.tiles.le_start hu
    refine lt_of_isLE distinct hs.injective (by unfold produced at hle; omega) ?_
    obtain rfl | hu := List.mem_cons.mp hu
    · exact h.settled i j (Nat.zero_le _) (by omega) hhi
    · have hbehind := hs.tiles.2.le_start hu
      have hready := s.ready.start_le_stop
      exact h.divided s.ready List.mem_cons_self i j (by omega) (by omega)
  tiles_lt := by
    refine hs.tiles.pairwise.imp_of_mem ?_
    intro t u ht _ hapart i j hlo hhi hlo' hhi'
    refine lt_of_isLE distinct hs.injective (by omega) ?_
    exact h.divided t ht i j hhi (by omega)

end Progress

namespace Sequence

/-- After any number of calls the state of a stream agrees with what the calls returned, and
the assertion of a further call does not fail. If the comparators are consistent, the tiles of
the state are separated. -/
theorem representation_after (sequence : Sequence α) (clock : UInt64) (k : Nat) :
    ∃ p : Progress α sequence.items.length,
      (sequence.start clock).after k = { sequence.start clock with progress := p } ∧
      p.Represents sequence.source (((sequence.start clock).answers k).countP (·.isSome)) ∧
      p.nextAsserting sequence.order = some (p.next sequence.order) ∧
      ((∀ level ∈ sequence.levels, Std.TransCmp level.compare) → p.Separates sequence.order) := by
  have hinitial := sequence.initial_consistent clock
  have hs := hinitial.after sequence.order k
  refine ⟨_, Sorted.after_eq _ k, ?_, hs.nextAsserting_eq sequence.order, ?_⟩
  · have hmade : ((sequence.start clock).answers k).countP (·.isSome) =
        sequence.items.length - ((sequence.initial clock).after sequence.order k).remaining := by
      have hfirst : (sequence.initial clock).remaining = sequence.items.length := rfl
      rw [sequence.countP_answers clock, hinitial.remaining_after, hfirst]
      omega
    rw [hmade]
    exact hs.represents
  · intro consistent
    have horder : Std.TransCmp sequence.order := Chain.transCmp_order consistent sequence.source
    have hpasses := hinitial.passes_after sequence.order (Nat.zero_le k)
    exact ((Progress.ordered_start _ _ _).passes hinitial hpasses).separates hs
      fun _ _ => Chain.eq_of_order_eq

/-- Twelve numbers in no order, and a seed for which one part of a span is empty. -/
def shuffled : Sequence Nat :=
  (orderBy [5, 3, 8, 1, 9, 2, 7, 4, 6, 0, 11, 10] ⟨id, compare, .ascending⟩).withSeed 19

/-- After two calls seven slots are ready, and one of the spans behind them is empty. -/
theorem representation_after_of_shuffled :
    ∃ p : Progress Nat shuffled.items.length,
      (shuffled.start 0).after 2 = { shuffled.start 0 with progress := p } ∧
      (p.ready :: p.pending).map (fun span => (span.start, span.stop)) =
        [(2, 9), (9, 10), (10, 10), (10, 11), (11, 12)] ∧
      (∀ level ∈ shuffled.levels, Std.TransCmp level.compare) ∧ p.Separates shuffled.order := by
  have consistent : ∀ level ∈ shuffled.levels, Std.TransCmp level.compare := by
    intro level hlevel
    obtain rfl := List.mem_singleton.mp hlevel
    exact inferInstanceAs (Std.TransCmp (compare : Nat → Nat → Ordering))
  have htiles : (((shuffled.start 0).after 2).progress.ready ::
      ((shuffled.start 0).after 2).progress.pending).map (fun span => (span.start, span.stop)) =
        [(2, 9), (9, 10), (10, 10), (10, 11), (11, 12)] := by
    cbv
  obtain ⟨p, hp, -, -, hseparates⟩ := representation_after shuffled 0 2
  rw [hp] at htiles
  exact ⟨p, hp, htiles, consistent, hseparates consistent⟩

end Sequence

end TextKit.Sorting
