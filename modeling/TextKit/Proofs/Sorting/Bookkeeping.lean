import Mathlib.Logic.Relation
import TextKit.Proofs.Sorting.Rearrangement
import TextKit.Sorting.Progress

/-!
# The bookkeeping of a sort in progress

Producing an item is a loop, and a pass of it either gives up a ready slot or
visits the nearest pending span. All that the state keeps must stay in step over
the passes: the arrangement has every place once, the slots up to the number of
items produced are those whose items are gone, and the ready slots and the pending
spans tile the other slots from left to right.

None of this depends on what the comparisons answer.
-/

namespace TextKit.Sorting

variable {α : Type} {n : Nat}

/-- The spans follow each other without a gap from a slot on to the last one. -/
def Tiles : Nat → List (Span n) → Prop
  | slot, [] => slot = n
  | slot, span :: rest => span.start = slot ∧ Tiles span.stop rest

theorem Tiles.le_start {slot : Nat} {spans : List (Span n)} (h : Tiles slot spans) {span : Span n}
    (hspan : span ∈ spans) : slot ≤ span.start := by
  induction spans generalizing slot with
  | nil => cases hspan
  | cons first rest ih =>
      obtain ⟨rfl, hrest⟩ := h
      rcases List.mem_cons.mp hspan with rfl | hspan
      · exact Nat.le_refl _
      · exact Nat.le_trans first.start_le_stop (ih hrest hspan)

theorem Tiles.le_stop {slot : Nat} {spans : List (Span n)} (h : Tiles slot spans) {span : Span n}
    (hspan : span ∈ spans) : slot ≤ span.stop :=
  Nat.le_trans (h.le_start hspan) span.start_le_stop

namespace Progress

/-- The slot that is given up next. -/
def front (s : Progress α n) (h : s.ready.start < s.ready.stop) : Fin n :=
  ⟨s.ready.start, s.ready_start_lt h⟩

/-- The number of items that have been produced. -/
def produced (s : Progress α n) : Nat := n - s.remaining

/-- One pass of the loop that produces an item. -/
inductive Pass (order : Fin n → Fin n → Ordering) : Progress α n → Progress α n → Prop where
  | produce {s : Progress α n} (h : s.ready.start < s.ready.stop) {item : α}
      (present : s.items.get (s.slots.place (s.front h)) = some item) : Pass order s (s.produce h)
  | visit {s : Progress α n} {span : Span n} {rest : List (Span n)}
      (spent : ¬ s.ready.start < s.ready.stop) (nearest : s.pending = span :: rest) :
      Pass order s (s.visit order span rest)

/-- Passes taken one after another. -/
abbrev Passes (order : Fin n → Fin n → Ordering) : Progress α n → Progress α n → Prop :=
  Relation.ReflTransGen (Pass order)

theorem cut_rearranges (order : Fin n → Fin n → Ordering) (span : Span n)
    (h : span.start < span.stop) (s : Progress α n) :
    Rearranges span.start span.stop s.slots (s.cut order span h).1.slots :=
  Draft.partition_rearranges order span _
    ⟨s.source.advance.start_le_select .., s.source.advance.select_lt_stop h⟩ ⟨s.slots, #[]⟩

/-- What a visit does, whichever of the two it is: a span becomes ready, or its
three parts are pending in its place. -/
theorem visit_cases (order : Fin n → Fin n → Ordering) (span : Span n) (rest : List (Span n))
    (s : Progress α n) :
    Rearranges span.start span.stop s.slots (s.visit order span rest).slots ∧
    (s.visit order span rest).items = s.items ∧
    (s.visit order span rest).remaining = s.remaining ∧
    ((s.visit order span rest).ready = span ∧ (s.visit order span rest).pending = rest ∨
      (s.visit order span rest).ready = s.ready ∧ ∃ slot h, (s.visit order span rest).pending =
        span.before slot h :: span.single slot h :: span.after slot h :: rest) := by
  unfold visit
  split
  · exact ⟨Draft.insertionSort_rearranges order span ⟨s.slots, #[]⟩, rfl, rfl, .inl ⟨rfl, rfl⟩⟩
  · rename_i hlarge
    have hspan : span.start < span.stop := by
      unfold Span.size at hlarge
      omega
    exact ⟨cut_rearranges order span hspan s, rfl, rfl,
      .inr ⟨rfl, _, (s.cut order span hspan).2.property, rfl⟩⟩

/-- All that the state keeps agrees with what has been produced of the items. -/
structure Consistent (items : Vector α n) (s : Progress α n) : Prop where
  injective : Function.Injective s.slots.place
  remaining_le : s.remaining ≤ n
  tiles : Tiles s.produced (s.ready :: s.pending)
  items_eq : ∀ i, s.items.get (s.slots.place i) =
    if i.val < s.produced then none else some (items.get (s.slots.place i))

theorem consistent_start (items : Vector α n) (source : PivotSource) :
    (start items source).Consistent items where
  injective := by
    intro i j h
    simpa [start] using h
  remaining_le := Nat.le_refl n
  tiles := by simp [start, produced, Tiles, Span.full, Span.empty]
  items_eq i := by
    rw [if_neg (by simp [start, produced])]
    exact Vector.getElem_map some _

namespace Consistent

variable {order : Fin n → Fin n → Ordering} {items : Vector α n} {s t : Progress α n}

theorem ready_start (h : s.Consistent items) : s.ready.start = s.produced := h.tiles.1

/-- Between the items produced and the nearest pending span there is nothing but the
slots that are ready. -/
theorem pending_start (h : s.Consistent items) {span : Span n} {rest : List (Span n)}
    (spent : ¬ s.ready.start < s.ready.stop) (nearest : s.pending = span :: rest) :
    span.start = s.produced := by
  obtain ⟨hstart, htiles⟩ := h.tiles
  rw [nearest] at htiles
  have hready := s.ready.start_le_stop
  have hspan := htiles.1
  omega

/-- A slot that is ready still has its item, and the item is counted. -/
theorem present (h : s.Consistent items) (hready : s.ready.start < s.ready.stop) :
    s.items.get (s.slots.place (s.front hready)) =
      some (items.get (s.slots.place (s.front hready))) ∧ 0 < s.remaining := by
  have hstart := h.ready_start
  have hstop := s.ready.stop_le
  refine ⟨?_, ?_⟩
  · rw [h.items_eq, if_neg]
    simp only [front]
    omega
  · unfold produced at hstart
    omega

theorem produced_produce (h : s.Consistent items) (hready : s.ready.start < s.ready.stop) :
    (s.produce hready).produced = s.produced + 1 := by
  have hpos := (h.present hready).2
  have hle := h.remaining_le
  simp only [produced, produce]
  omega

theorem produce (h : s.Consistent items) (hready : s.ready.start < s.ready.stop) :
    (s.produce hready).Consistent items where
  injective := h.injective
  remaining_le := Nat.le_trans (Nat.sub_le _ _) h.remaining_le
  tiles := by
    rw [h.produced_produce hready, ← h.ready_start]
    exact ⟨rfl, h.tiles.2⟩
  items_eq i := by
    have hstart := h.ready_start
    have hset : (s.produce hready).items.get (s.slots.place i) =
        if i = s.front hready then none else s.items.get (s.slots.place i) := by
      change (s.items.set (s.slots.place (s.front hready)).val none)[(s.slots.place i).val] = _
      rw [Vector.getElem_set]
      simp only [← Fin.ext_iff, h.injective.eq_iff, eq_comm]
      rfl
    change (s.produce hready).items.get (s.slots.place i) = _
    rw [hset, h.items_eq, h.produced_produce hready]
    simp only [Fin.ext_iff, front]
    split
    · rw [if_pos (by omega)]
    · split
      · rw [if_pos (by omega)]
      · rw [if_neg (by omega)]
        rfl

theorem visit (h : s.Consistent items) {span : Span n} {rest : List (Span n)}
    (spent : ¬ s.ready.start < s.ready.stop) (nearest : s.pending = span :: rest) :
    (s.visit order span rest).Consistent items := by
  obtain ⟨hslots, hitems, hremaining, hspans⟩ := visit_cases order span rest s
  have hproduced : (s.visit order span rest).produced = s.produced := by
    rw [produced, produced, hremaining]
  have hspan := h.pending_start spent nearest
  obtain ⟨hstart, htiles⟩ := h.tiles
  rw [nearest] at htiles
  refine ⟨hslots.injective h.injective, hremaining ▸ h.remaining_le, ?_, ?_⟩
  · rw [hproduced]
    rcases hspans with ⟨hr, hp⟩ | ⟨hr, slot, hslot, hp⟩
    · rw [hr, hp]
      exact ⟨hspan, htiles.2⟩
    · rw [hr, hp]
      exact ⟨hstart, htiles.1, rfl, rfl, htiles.2⟩
  · intro i
    rw [hitems, hproduced]
    by_cases hi : span.start ≤ i.val ∧ i.val < span.stop
    · obtain ⟨j, hlo, -, hj⟩ := hslots.inside hi.1 hi.2
      rw [hj, h.items_eq, if_neg (by omega), if_neg (by omega)]
    · rw [hslots.outside (by omega), h.items_eq]

/-- The bookkeeping is right after a pass if it was right before. -/
theorem pass (h : s.Consistent items) (hpass : Pass order s t) : t.Consistent items := by
  cases hpass with
  | produce hready _ => exact h.produce hready
  | visit spent nearest => exact h.visit spent nearest

theorem passes (h : s.Consistent items) (hpasses : Passes order s t) : t.Consistent items := by
  induction hpasses with
  | refl => exact h
  | tail _ hpass ih => exact ih.pass hpass

/-- When nothing remains, all slots are ready or have been given up. -/
theorem ready_stop_of_remaining (h : s.Consistent items) (hzero : s.remaining = 0) :
    s.ready.stop = n := by
  have hready := s.ready.start_le_stop
  have hstop := s.ready.stop_le
  have hstart := h.ready_start
  rw [produced, hzero] at hstart
  omega

/-- A property of states holds after any passes if it holds before them and each kind of
pass keeps it. The nearest span is the one right behind the ready slots, and only a large
one is split. -/
theorem induction (h : s.Consistent items) {P : Progress α n → Prop} (start : P s)
    (produce : ∀ (s : Progress α n) (hready : s.ready.start < s.ready.stop),
      s.Consistent items → P s → P (s.produce hready))
    (settle : ∀ (s : Progress α n) (span : Span n) (rest : List (Span n)), s.Consistent items →
      s.pending = span :: rest → span.start = s.ready.stop → Tiles span.stop rest →
      P s → P (s.settle order span rest))
    (split : ∀ (s : Progress α n) (span : Span n) (rest : List (Span n)), s.Consistent items →
      s.pending = span :: rest → span.start = s.ready.stop → Tiles span.stop rest →
      ∀ hspan, insertionSortThreshold < span.size → P s → P (s.split order span hspan rest))
    (hpasses : Passes order s t) : P t := by
  induction hpasses with
  | refl => exact start
  | @tail s t hfirst hpass ih =>
      have hs := h.passes hfirst
      cases hpass with
      | produce hready _ => exact produce s hready hs ih
      | @visit span rest spent nearest =>
          obtain ⟨-, htiles⟩ := hs.tiles
          rw [nearest] at htiles
          unfold Progress.visit
          split
          · exact settle s span rest hs nearest htiles.1 htiles.2 ih
          · rename_i hlarge
            exact split s span rest hs nearest htiles.1 htiles.2 _ (Nat.lt_of_not_le hlarge) ih

end Consistent

end Progress

end TextKit.Sorting
