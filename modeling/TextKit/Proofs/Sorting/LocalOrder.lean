import Mathlib.Data.List.ChainOfFn
import TextKit.Proofs.Sorting.Production
import TextKit.Proofs.Sorting.Sortedness

/-!
# Neighbours under an arbitrary comparison

Nothing is assumed of the comparison here. Sortedness is then out of reach, but each item
that is drained was still compared with the one before it, and that comparison allows the
two to be neighbours in this order.

Insertion compares the value that it holds with the places on both sides of the slot that
it takes in the end, and a shift moves neighbours together. Where two pending spans meet,
one of them is the slot of a pivot, and every place of the other was compared with it. So
it does not matter how that span is rearranged later on, nor which of its places comes
next to the pivot. Empty spans leave their neighbours to meet each other.
-/

namespace TextKit.Sorting

variable {α : Type} {n : Nat}

/-- One of the two ways to compare two places allows `l` to stand right before `r`. -/
def MayPrecede (order : Fin n → Fin n → Ordering) (l r : Fin n) : Prop :=
  order l r ≠ .gt ∨ order r l = .gt

/-- If the two ways to compare are opposite, the first one allows it already. -/
theorem MayPrecede.ne_gt {order : Fin n → Fin n → Ordering} {l r : Fin n}
    (h : MayPrecede order l r) (opposite : order r l = (order l r).swap) : order l r ≠ .gt := by
  rcases h with hle | hgt
  · exact hle
  · intro hlr
    rw [hlr] at opposite
    rw [opposite] at hgt
    cases hgt

/-- Neighbours among the slots from `lo` up to, excluding, `hi` may stand so. -/
def LinkedOn (order : Fin n → Fin n → Ordering) (a : Arrangement n) (lo hi : Nat) : Prop :=
  ∀ i j : Fin n, lo ≤ i.val → j.val = i.val + 1 → j.val < hi →
    MayPrecede order (a.place i) (a.place j)

/-- Any place from `lo` up to `k` may stand right before any from there up to `hi`. -/
abbrev Meets (order : Fin n → Fin n → Ordering) (a : Arrangement n) (lo k hi : Nat) : Prop :=
  Across (MayPrecede order) a lo k hi

variable {order : Fin n → Fin n → Ordering} {a b : Arrangement n} {lo k hi l r : Nat}

theorem LinkedOn.rearrange (h : LinkedOn order a lo hi) (hmove : Rearranges l r a b)
    (hside : hi ≤ l) : LinkedOn order b lo hi := by
  intro i j hlo hij hhi
  rw [hmove.outside (.inl (by omega)), hmove.outside (.inl (by omega))]
  exact h i j hlo hij hhi

/-- Two runs of slots can be joined if the last slot of the first meets the second. -/
theorem LinkedOn.append (h : LinkedOn order a lo k) (h' : LinkedOn order a k hi)
    (hk : Meets order a (k - 1) k hi) : LinkedOn order a lo hi := by
  intro i j hlo hij hhi
  by_cases hjk : j.val < k
  · exact h i j hlo hij hjk
  · by_cases hik : i.val < k
    · exact hk i j (by omega) hik (by omega) hhi
    · exact h' i j (by omega) hij hhi

/-- A value is held outside while one slot is free for it. With the free slot left out,
neighbours may stand as they do, and the place behind it compares greater than the
value. -/
structure Gap (order : Fin n → Fin n → Ordering) (start stop : Nat) (value : Fin n)
    (slot : Nat) (a : Arrangement n) : Prop where
  others : ∀ i j : Fin n, start ≤ i.val → j.val < stop → i.val ≠ slot → j.val ≠ slot →
    (j.val = i.val + 1 ∨ i.val + 1 = slot ∧ j.val = slot + 1) →
      MayPrecede order (a.place i) (a.place j)
  behind : ∀ j : Fin n, j.val = slot + 1 → j.val < stop → order (a.place j) value = .gt

namespace Gap

variable {start stop slot : Nat} {value : Fin n}

/-- The value can be put into the free slot if the place before it is not greater. -/
theorem fill (h : Gap order start stop value slot a) (hslot : slot < n)
    (hbefore : ∀ i : Fin n, start ≤ i.val → i.val + 1 = slot → order (a.place i) value ≠ .gt) :
    LinkedOn order (a.set slot value) start stop := by
  intro i j hi hij hj
  rw [Arrangement.place_set, Arrangement.place_set]
  split
  · rw [if_neg (by omega)]
    exact .inr (h.behind j (by omega) hj)
  · split
    · exact .inl (hbefore i hi (by omega))
    · exact h.others i j hi hj ‹_› ‹_› (.inl hij)

/-- A greater place before the free slot moves into it. -/
theorem shift (h : Gap order start stop value (slot + 1) a) (hslot : slot + 1 < n)
    (hprevious : slot < n) (hstart : start ≤ slot) (hgt : order a[slot] value = .gt) :
    Gap order start stop value slot (a.set (slot + 1) a[slot]) where
  others i j hi hj hne hne' hnext := by
    rw [Arrangement.place_set, Arrangement.place_set]
    split
    · -- The place that moved had the one behind the free slot as its neighbour.
      rw [if_neg (by omega)]
      exact h.others ⟨slot, hprevious⟩ j hstart hj (by simp) (by omega) (.inr ⟨rfl, by omega⟩)
    · split
      · -- The place before it stays its neighbour.
        exact h.others i ⟨slot, hprevious⟩ hi (by simp; omega) (by omega) (by simp)
          (.inl (by simp; omega))
      · exact h.others i j hi hj (by omega) (by omega) (.inl (by omega))
  behind j hj hjstop := by
    rw [Arrangement.place_set, if_pos hj]
    exact hgt

end Gap

namespace Draft

/-- Inserting a value that is held links all slots. -/
theorem insert_linkedOn (start stop : Nat) (value : Fin n) (slot : Nat) (h : slot < n)
    (d : Draft n) (hd : Gap order start stop value slot d.slots) :
    LinkedOn order (insert order start value slot h d).slots start stop := by
  refine insert_induction (P := Gap order start stop value)
    (Q := fun a => LinkedOn order a start stop) ?_ ?_ slot h d hd
  · intro slot a h hprevious hstart hgt hd
    exact hd.shift h hprevious hstart hgt
  · intro slot a h hbefore hd
    exact hd.fill h hbefore

theorem insertFrom_linkedOn (start stop : Nat) (hstop : stop ≤ n) (index : Nat) (d : Draft n)
    (hd : LinkedOn order d.slots start index) :
    LinkedOn order (insertFrom order start stop hstop index d).slots start stop := by
  fun_induction insertFrom order start stop hstop index d with
  | case1 index d h ih =>
      refine ih (insert_linkedOn start (index + 1) _ index (by omega) d ?_)
      constructor
      · intro i j hi hj _ hne hnext
        exact hd i j hi (by omega) (by omega)
      · intro j hj hjstop
        omega
  | case2 index d h =>
      intro i j hi hij hj
      exact hd i j hi hij (by omega)

theorem insertionSort_linkedOn (span : Span n) (d : Draft n) :
    LinkedOn order (insertionSort order span d).slots span.start span.stop := by
  apply insertFrom_linkedOn
  intro i j hi hij hj
  omega

/-- The pivot meets all places of its span on both of its sides. -/
theorem partition_meets (span : Span n) (pivotSlot : Nat)
    (hpivot : span.start ≤ pivotSlot ∧ pivotSlot < span.stop) (d : Draft n) :
    Meets order (partition order span pivotSlot hpivot d).1.slots span.start
        (partition order span pivotSlot hpivot d).2.val
        ((partition order span pivotSlot hpivot d).2.val + 1) ∧
      Meets order (partition order span pivotSlot hpivot d).1.slots
        (partition order span pivotSlot hpivot d).2.val
        ((partition order span pivotSlot hpivot d).2.val + 1) span.stop := by
  obtain ⟨pivot, hplace, hfront, hback⟩ := partition_zones order span pivotSlot hpivot d
  constructor
  · intro i j hi hik hkj hj
    rw [hplace j (by omega)]
    exact .inl (Ordering.isLE_iff_ne_gt.mp (hfront i hi hik))
  · intro i j hi hik hkj hj
    rw [hplace i (by omega)]
    exact .inr (hback j hkj hj)

end Draft

namespace Progress

theorem cut_meets (order : Fin n → Fin n → Ordering) (span : Span n)
    (h : span.start < span.stop) (s : Progress α n) :
    Meets order (s.cut order span h).1.slots span.start (s.cut order span h).2.val
        ((s.cut order span h).2.val + 1) ∧
      Meets order (s.cut order span h).1.slots (s.cut order span h).2.val
        ((s.cut order span h).2.val + 1) span.stop :=
  Draft.partition_meets span _
    ⟨s.source.advance.start_le_select .., s.source.advance.select_lt_stop h⟩ ⟨s.slots, #[]⟩

/-- Neighbours that are settled may stand so, and where two pending spans meet, or the
first of them and what is settled, any of their places may become neighbours. -/
structure Linked (order : Fin n → Fin n → Ordering) (s : Progress α n) : Prop where
  settled : LinkedOn order s.slots 0 s.ready.stop
  front : ∀ span ∈ s.pending, span.start = s.ready.stop →
    Meets order s.slots (s.ready.stop - 1) s.ready.stop span.stop
  pending : s.pending.Pairwise fun span other => span.stop = other.start →
    Meets order s.slots span.start span.stop other.stop

theorem linked_start (order : Fin n → Fin n → Ordering) (items : Vector α n)
    (source : PivotSource) : (start items source).Linked order where
  settled _ _ _ _ hj := absurd hj (Nat.not_lt_zero _)
  front _ _ _ _ _ _ hik := absurd hik (Nat.not_lt_zero _)
  pending := List.pairwise_singleton _ _

namespace Linked

variable {items : Vector α n} {s t : Progress α n} {span : Span n} {rest : List (Span n)}

/-- Rearranging the nearest span changes nothing where it meets others, nor behind it. -/
theorem keep (h : s.Linked order) (hstart : span.start = s.ready.stop)
    (htiles : Tiles span.stop rest) (nearest : s.pending = span :: rest)
    (hmove : Rearranges span.start span.stop s.slots b) :
    Meets order b (s.ready.stop - 1) s.ready.stop span.stop ∧
    (∀ other ∈ rest, span.stop = other.start →
      Meets order b span.start span.stop other.stop) ∧
    rest.Pairwise fun span other => span.stop = other.start →
      Meets order b span.start span.stop other.stop := by
  have hfront := h.front span (by simp [nearest]) hstart
  have hpending := h.pending
  rw [nearest, List.pairwise_cons] at hpending
  obtain ⟨hspan, hrest⟩ := hpending
  refine ⟨?_, ?_, ?_⟩
  · exact hfront.rearrange hmove (by omega) (by omega)
  · intro other hother hmeet
    exact (hspan other hother hmeet).rearrange hmove (by omega) (by omega)
  · refine hrest.imp_of_mem ?_
    intro other another hother _ hmeets hmeet
    have hle := htiles.le_start hother
    have hother' := other.start_le_stop
    exact (hmeets hmeet).rearrange hmove (by omega) (by omega)

theorem settle (h : s.Linked order) (hstart : span.start = s.ready.stop)
    (htiles : Tiles span.stop rest) (nearest : s.pending = span :: rest) :
    (s.settle order span rest).Linked order := by
  have hmove := Draft.insertionSort_rearranges order span ⟨s.slots, #[]⟩
  obtain ⟨hfront, hspan, hrest⟩ := h.keep hstart htiles nearest hmove
  have hbefore := h.settled.rearrange hmove (Nat.le_of_eq hstart.symm)
  rw [← hstart] at hbefore hfront
  refine ⟨hbefore.append (Draft.insertionSort_linkedOn span _) hfront, ?_, hrest⟩
  intro other hother hmeet
  change other ∈ rest at hother
  change other.start = span.stop at hmeet
  change Meets order _ (span.stop - 1) span.stop other.stop
  rcases Nat.lt_or_eq_of_le span.start_le_stop with hlt | heq
  · exact (hspan other hother hmeet.symm).mono (by omega) (Nat.le_refl _)
  · -- What is settled in front of an empty span meets the one behind it.
    have hbehind := h.front other (by simp [nearest, hother]) (by omega)
    rw [← hstart, heq] at hbehind
    exact hbehind.rearrange hmove (by omega) (by omega)

theorem split (h : s.Linked order) (hstart : span.start = s.ready.stop)
    (htiles : Tiles span.stop rest) (nearest : s.pending = span :: rest)
    (hspan : span.start < span.stop) : (s.split order span hspan rest).Linked order := by
  have hmove := cut_rearranges order span hspan s
  obtain ⟨hfront, hbehind, hrest⟩ := h.keep hstart htiles nearest hmove
  obtain ⟨hleft, hright⟩ := cut_meets order span hspan s
  have hslot := (s.cut order span hspan).2.property
  have hafter : ∀ other ∈ rest, span.stop ≤ other.start := fun other hother =>
    htiles.le_start hother
  refine ⟨h.settled.rearrange hmove (Nat.le_of_eq hstart.symm), ?_, ?_⟩
  · intro other hother hmeet
    change other ∈ span.before _ _ :: span.single _ _ :: span.after _ _ :: rest at hother
    change other.start = s.ready.stop at hmeet
    refine hfront.mono (Nat.le_refl _) ?_
    simp only [List.mem_cons] at hother
    rcases hother with rfl | rfl | rfl | hother
    · exact Nat.le_of_lt hslot.2
    · exact hslot.2
    · exact Nat.le_refl _
    · have hle := hafter other hother
      omega
  · change (span.before _ hslot :: span.single _ hslot :: span.after _ hslot :: rest).Pairwise _
    refine .cons ?_ (.cons ?_ (.cons ?_ hrest))
    · intro other hother hmeet
      change (s.cut order span hspan).2.val = other.start at hmeet
      simp only [List.mem_cons] at hother
      rcases hother with rfl | rfl | hother
      · exact hleft
      · exact absurd hmeet (Nat.ne_of_lt (Nat.lt_succ_self _))
      · have hle := hafter other hother
        omega
    · intro other hother hmeet
      change (s.cut order span hspan).2.val + 1 = other.start at hmeet
      rcases List.mem_cons.mp hother with rfl | hother
      · exact hright
      · -- The pivot came to the end of its span.
        have hle := hafter other hother
        have hlast := hbehind other hother (by omega)
        change Meets order _ (s.cut order span hspan).2.val ((s.cut order span hspan).2.val + 1) _
        intro i j hi hik hkj hj
        exact hlast i j (Nat.le_trans hslot.1 hi) (Nat.lt_of_lt_of_le hik hslot.2) (by omega) hj
    · intro other hother hmeet
      exact (hbehind other hother hmeet).mono (Nat.le_trans hslot.1 (Nat.le_succ _)) (Nat.le_refl _)

/-- Passes keep the links. -/
theorem passes (h : s.Linked order) (hs : s.Consistent items) (hpasses : Passes order s t) :
    t.Linked order := by
  refine hs.induction h ?_ ?_ ?_ hpasses
  · intro s hready _ h
    exact ⟨h.settled, h.front, h.pending⟩
  · intro s span rest _ nearest hstart htiles h
    exact h.settle hstart htiles nearest
  · intro s span rest _ nearest hstart htiles hspan _ h
    exact h.split hstart htiles nearest hspan

/-- When nothing remains, all neighbours may stand so. -/
theorem linkedOn_of_remaining (h : s.Linked order) (hs : s.Consistent items)
    (hzero : s.remaining = 0) : LinkedOn order s.slots 0 n := by
  have hsettled := h.settled
  rwa [hs.ready_stop_of_remaining hzero] at hsettled

end Linked

end Progress

namespace Sequence

/-- Neighbours among the places that are drained may stand so. -/
theorem places_linked (sequence : Sequence α) (clock : UInt64) :
    (sequence.places clock).IsChain (MayPrecede sequence.order) := by
  have hs := sequence.initial_consistent clock
  have hpasses := hs.passes_after sequence.order (Nat.zero_le sequence.items.length)
  have hzero := hs.remaining_after sequence.order sequence.items.length
  have hlinked := ((Progress.linked_start _ _ _).passes hs hpasses).linkedOn_of_remaining
    (hs.after _ _) (hzero.trans (Nat.sub_self _))
  rw [places, ← List.ofFn_eq_map, List.isChain_ofFn]
  intro i hi
  exact hlinked ⟨i, by omega⟩ ⟨i + 1, hi⟩ (Nat.zero_le _) rfl hi

/-- Whatever the comparators answer, and whichever the seed, the items are drained in such
an order of their places that neighbours do not compare greater, or the second compares
greater than the first. If comparing the other way round always gives the opposite answer,
then no item compares greater than the one that is drained after it. -/
theorem drain_locally_ordered (sequence : Sequence α) (clock : UInt64) :
    (sequence.start clock).drain.1 = (sequence.places clock).map sequence.items.get ∧
    (sequence.places clock).Perm (List.finRange sequence.items.length) ∧
    (sequence.places clock).IsChain
      (fun l r => sequence.order l r ≠ .gt ∨ sequence.order r l = .gt) ∧
    ((∀ l r, sequence.order r l = (sequence.order l r).swap) →
      (sequence.places clock).IsChain fun l r => sequence.order l r ≠ .gt) := by
  have hlinked := sequence.places_linked clock
  refine ⟨sequence.drain_eq clock, sequence.places_perm clock, hlinked, ?_⟩
  intro opposite
  exact hlinked.imp fun l r hlr => hlr.ne_gt (opposite l r)

/-- Three items, each of them before the next and the last before the first. -/
def cyclic : Sequence (Fin 3) :=
  orderBy [0, 1, 2] {
    key := id
    compare := fun a b => if a = b then .eq else if a + 1 = b then .lt else .gt
    direction := .ascending }

/-- A comparison that is not transitive, but opposite both ways. -/
theorem drain_locally_ordered_of_cyclic :
    (∀ l r : Fin 3, cyclic.order r l = (cyclic.order l r).swap) ∧
    (cyclic.order (0 : Fin 3) (1 : Fin 3) = .lt ∧ cyclic.order (1 : Fin 3) (2 : Fin 3) = .lt ∧
      cyclic.order (0 : Fin 3) (2 : Fin 3) = .gt) ∧
    (cyclic.places 0).IsChain fun l r => cyclic.order l r ≠ .gt := by
  have opposite : ∀ l r : Fin 3, cyclic.order r l = (cyclic.order l r).swap := by decide +kernel
  exact ⟨opposite, by decide +kernel, (drain_locally_ordered cyclic 0).2.2.2 opposite⟩

end Sequence

end TextKit.Sorting
