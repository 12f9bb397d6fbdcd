import Mathlib.Data.Fintype.EquivFin
import Mathlib.Data.List.FinRange
import TextKit.Proofs.Sorting.Bookkeeping
import TextKit.Sorting.Sequence

/-!
# Every item is produced exactly once

A call for the next item is finitely many passes. If items are left, it visits
spans until a slot is ready and then gives up that slot. The slots that were given
up never change again, so the arrangement after the last item says in which order
all items were produced.

The comparators are arbitrary functions here, and so is the seed. They decide which
arrangement it is in the end, but not that each place occurs in it once.
-/

namespace TextKit.Sorting

variable {α : Type} {n : Nat}

namespace Progress

/-- The state after `k` calls for the next item. -/
def after (order : Fin n → Fin n → Ordering) (s : Progress α n) : Nat → Progress α n
  | 0 => s
  | k + 1 => ((s.after order k).next order).2

/-- What the next pass relies on. A slot that is given up still has its item, which
is counted as one of the remaining ones. A span that is visited begins right behind
the items produced, and their number is not negative. -/
structure Faultless (s : Progress α n) : Prop where
  present : ∀ h : s.ready.start < s.ready.stop,
    (s.items.get (s.slots.place (s.front h))).isSome = true ∧ 0 < s.remaining
  nearest : ∀ span rest, ¬ s.ready.start < s.ready.stop → s.pending = span :: rest →
    s.remaining ≤ n ∧ span.start = n - s.remaining

namespace Consistent

variable {order : Fin n → Fin n → Ordering} {items : Vector α n} {s t : Progress α n}

theorem faultless (h : s.Consistent items) : s.Faultless where
  present hready := by
    obtain ⟨hitem, hpos⟩ := h.present hready
    rw [hitem]
    exact ⟨rfl, hpos⟩
  nearest _ _ spent hpending := ⟨h.remaining_le, h.pending_start spent hpending⟩

/-- With nothing ready and nothing pending, all items have been produced. -/
theorem remaining_eq_zero (h : s.Consistent items) (spent : ¬ s.ready.start < s.ready.stop)
    (none : s.pending = []) : s.remaining = 0 := by
  obtain ⟨hstart, htiles⟩ := h.tiles
  rw [none] at htiles
  have hstop : s.ready.stop = n := htiles
  have hready := s.ready.start_le_stop
  have hle := h.remaining_le
  unfold produced at hstart
  omega

/-- A call finds that nothing remains, or its passes lead to a state with a ready
slot, whose item it produces. -/
theorem next (h : s.Consistent items) (order : Fin n → Fin n → Ordering) :
    (s.remaining = 0 ∧ (s.next order).1 = none ∧ Passes order s (s.next order).2 ∧
      (s.next order).2.remaining = 0) ∨
    ∃ (t : Progress α n) (hready : t.ready.start < t.ready.stop),
      Passes order s t ∧ t.remaining = s.remaining ∧
      s.next order = (some (items.get (t.slots.place (t.front hready))), t.produce hready) := by
  fun_induction Progress.next order s with
  | case1 s hready hslot item hitem =>
      have hpresent := (h.present hready).1
      have heq : some item = some (items.get (s.slots.place (s.front hready))) :=
        hitem.symm.trans hpresent
      exact .inr ⟨s, hready, .refl, rfl, by rw [heq]⟩
  | case2 s hready hslot hitem ih =>
      have hpresent := (h.present hready).1
      exact absurd (hitem.symm.trans hpresent) (by simp)
  | case3 s spent hpending =>
      have hzero := h.remaining_eq_zero spent hpending
      exact .inl ⟨hzero, rfl, .refl, hzero⟩
  | case4 s spent span rest hpending ih =>
      have hpass : Pass order s (s.visit order span rest) := .visit spent hpending
      have hremaining := (visit_cases order span rest s).2.2.1
      rcases ih (h.pass hpass) with ⟨hzero, hnone, hpasses, hlast⟩ | ⟨t, hready, hpasses, ht, heq⟩
      · exact .inl ⟨hremaining ▸ hzero, hnone, .head hpass hpasses, hlast⟩
      · exact .inr ⟨t, hready, .head hpass hpasses, ht.trans hremaining, heq⟩

/-- A call is a sequence of passes. -/
theorem next_passes (h : s.Consistent items) (order : Fin n → Fin n → Ordering) :
    Passes order s (s.next order).2 := by
  rcases h.next order with ⟨-, -, hpasses, -⟩ | ⟨t, hready, hpasses, -, heq⟩
  · exact hpasses
  · rw [heq]
    exact hpasses.tail (.produce hready ((h.passes hpasses).present hready).1)

theorem remaining_next (h : s.Consistent items) (order : Fin n → Fin n → Ordering) :
    (s.next order).2.remaining = s.remaining - 1 := by
  rcases h.next order with ⟨hzero, -, -, hlast⟩ | ⟨t, hready, -, ht, heq⟩
  · rw [hlast, hzero]
  · rw [heq, ← ht]
    rfl

/-- Slots that were given up are never touched again. -/
theorem place_eq_of_passes (h : s.Consistent items) (hpasses : Passes order s t) :
    s.produced ≤ t.produced ∧
      ∀ i : Fin n, i.val < s.produced → t.slots.place i = s.slots.place i := by
  induction hpasses with
  | refl => exact ⟨Nat.le_refl _, fun _ _ => rfl⟩
  | tail hfirst hpass ih =>
      obtain ⟨hle, hplace⟩ := ih
      have hmiddle := h.passes hfirst
      cases hpass with
      | produce hready _ =>
          refine ⟨?_, hplace⟩
          rw [hmiddle.produced_produce hready]
          omega
      | visit spent nearest =>
          obtain ⟨hslots, -, hremaining, -⟩ := visit_cases order _ _ _
          have hstart := hmiddle.pending_start spent nearest
          constructor
          · rw [produced, produced, hremaining]
            exact hle
          · intro i hi
            rw [hslots.outside (.inl (by omega)), hplace i hi]

theorem after (h : s.Consistent items) (order : Fin n → Fin n → Ordering) (k : Nat) :
    (s.after order k).Consistent items := by
  induction k with
  | zero => exact h
  | succ k ih => exact ih.passes (ih.next_passes order)

theorem remaining_after (h : s.Consistent items) (order : Fin n → Fin n → Ordering) (k : Nat) :
    (s.after order k).remaining = s.remaining - k := by
  induction k with
  | zero => rfl
  | succ k ih =>
      rw [Progress.after, (h.after order k).remaining_next order, ih]
      omega

theorem passes_after (h : s.Consistent items) (order : Fin n → Fin n → Ordering) {j k : Nat}
    (hjk : j ≤ k) : Passes order (s.after order j) (s.after order k) := by
  induction hjk with
  | refl => exact .refl
  | step _ ih => exact ih.trans ((h.after order _).next_passes order)

/-- The arrangement after the last item says what every call produced. -/
theorem next_after (h : s.Consistent items) (hfirst : s.remaining = n)
    (order : Fin n → Fin n → Ordering) (k : Nat) :
    ((s.after order k).next order).1 =
      if hk : k < n then some (items.get ((s.after order n).slots.place ⟨k, hk⟩)) else none := by
  have hremaining := h.remaining_after order k
  have hk := h.after order k
  rcases hk.next order with ⟨hzero, hnone, -, -⟩ | ⟨t, hready, hpasses, ht, heq⟩
  · rw [hnone, dif_neg]
    omega
  · have ht' := hk.passes hpasses
    obtain ⟨-, hpos⟩ := ht'.present hready
    have hfront : k = t.ready.start := by
      rw [ht'.ready_start, produced]
      omega
    have hlt : k < n := hfront ▸ (t.front hready).isLt
    have hslot : (⟨k, hlt⟩ : Fin n) = t.front hready := Fin.ext hfront
    -- The slot is among those given up once the call has returned.
    have hlast : Passes order (t.produce hready) (s.after order n) := by
      have hcall : s.after order (k + 1) = t.produce hready := congrArg Prod.snd heq
      rw [← hcall]
      exact h.passes_after order hlt
    have hplace := ((ht'.produce hready).place_eq_of_passes hlast).2 (t.front hready) (by
      rw [ht'.produced_produce hready, ← ht'.ready_start]
      exact Nat.lt_succ_self _)
    rw [heq, dif_pos hlt, hslot, hplace]
    rfl

end Consistent

end Progress

namespace Sorted

/-- The stream after `k` calls for the next item. -/
def after (s : Sorted α) : Nat → Sorted α
  | 0 => s
  | k + 1 => (s.after k).next.2

/-- What the first `k` calls return. -/
def answers (s : Sorted α) (k : Nat) : List (Option α) :=
  (List.range k).map fun j => (s.after j).next.1

/-- Passes lead from one stream to the other. -/
def Reaches (s t : Sorted α) : Prop :=
  ∃ p, Progress.Passes s.chain.order s.progress p ∧ t = { s with progress := p }

theorem after_eq (s : Sorted α) (k : Nat) :
    s.after k = { s with progress := s.progress.after s.chain.order k } := by
  induction k with
  | zero => rfl
  | succ k ih => rw [after, ih, next, Progress.after]

theorem after_next (s : Sorted α) (k : Nat) : s.next.2.after k = s.after (k + 1) := by
  induction k with
  | zero => rfl
  | succ k ih => rw [after, ih]; rfl

/-- Items are taken as long as the calls return them. -/
theorem takeOnto_eq {s : Sorted α} {items : List α} (h : ∀ k, (s.after k).next.1 = items[k]?)
    (taken : Array α) (m : Nat) : (takeOnto taken m s).1 = taken.toList ++ items.take m := by
  induction m generalizing s items taken with
  | zero => simp [takeOnto]
  | succ m ih =>
      have hfirst : s.next.1 = items[0]? := h 0
      rw [takeOnto]
      split
      · rename_i s' hnext
        rw [hnext] at hfirst
        have hempty : items = [] := by simpa using hfirst.symm
        simp [hempty]
      · rename_i item s' hnext
        rw [hnext] at hfirst
        cases items with
        | nil => simp at hfirst
        | cons first rest =>
            obtain rfl : item = first := by simpa using hfirst
            have hrest : ∀ k, (s'.after k).next.1 = rest[k]? := by
              intro k
              have hs' : s' = s.next.2 := by rw [hnext]
              rw [hs', after_next, h (k + 1), List.getElem?_cons_succ]
            rw [ih hrest]
            simp

end Sorted

namespace Sequence

variable (sequence : Sequence α) (clock : UInt64)

/-- The order in which the places of a sequence are sorted. -/
def order : Fin sequence.items.length → Fin sequence.items.length → Ordering :=
  (Chain.ofLevels sequence.levels sequence.source).order

/-- The state in which a sort of the sequence begins. -/
def initial : Progress α sequence.items.length :=
  .start sequence.source (.ofSeed (sequence.seed.getD clock))

theorem initial_consistent : (sequence.initial clock).Consistent sequence.source :=
  Progress.consistent_start _ _

/-- The arrangement that a stream leaves behind. -/
def finalSlots : Arrangement sequence.items.length :=
  ((sequence.initial clock).after sequence.order sequence.items.length).slots

theorem finalSlots_bijective : Function.Bijective (sequence.finalSlots clock).place :=
  Finite.injective_iff_bijective.mp ((sequence.initial_consistent clock).after _ _).injective

theorem next_after_start (k : Nat) : ((sequence.start clock).after k).next.1 =
    if h : k < sequence.items.length then
      some (sequence.items.get ((sequence.finalSlots clock).place ⟨k, h⟩))
    else none := by
  rw [Sorted.after_eq]
  exact (sequence.initial_consistent clock).next_after rfl _ k

theorem length_after_start (k : Nat) :
    ((sequence.start clock).after k).length = sequence.items.length - k := by
  rw [Sorted.after_eq]
  exact (sequence.initial_consistent clock).remaining_after _ k

/-- The places of the items in the order in which they are drained. -/
def places : List (Fin sequence.items.length) :=
  (List.finRange sequence.items.length).map (sequence.finalSlots clock).place

theorem places_perm :
    (sequence.places clock).Perm (List.finRange sequence.items.length) :=
  Equiv.Perm.map_finRange_perm (Equiv.ofBijective _ (sequence.finalSlots_bijective clock))

/-- Taking from a stream gives the first items in the order of the arrangement that it
leaves in the end. -/
theorem take_eq (m : Nat) : ((sequence.start clock).take m).1 =
    ((sequence.places clock).map sequence.items.get).take m := by
  have hanswer : ∀ k, ((sequence.start clock).after k).next.1 =
      ((sequence.places clock).map sequence.items.get)[k]? := by
    intro k
    rw [sequence.next_after_start clock k, places, List.map_map, ← List.ofFn_eq_map,
      List.getElem?_ofFn]
    rfl
  exact Sorted.takeOnto_eq hanswer #[] m

/-- Draining a stream gives all items in that order. -/
theorem drain_eq :
    (sequence.start clock).drain.1 = (sequence.places clock).map sequence.items.get := by
  have hlength : (sequence.start clock).length = sequence.items.length :=
    sequence.length_after_start clock 0
  rw [Sorted.drain, take_eq, List.take_of_length_le (by simp [places, hlength])]

theorem countP_answers (k : Nat) : ((sequence.start clock).answers k).countP (·.isSome) =
    min k sequence.items.length := by
  induction k with
  | zero => simp [Sorted.answers]
  | succ k ih =>
      rw [Sorted.answers, List.range_succ, List.map_append, List.countP_append, ← Sorted.answers,
        ih, List.map_singleton, sequence.next_after_start clock k]
      split
      · rw [List.countP_singleton]
        simp only [Option.isSome_some, if_true]
        omega
      · rw [List.countP_singleton]
        simp only [Option.isSome_none, Bool.false_eq_true, if_false]
        omega

/-- Whatever the comparators answer, the first calls produce the items in some order,
each of them once, and later calls produce nothing. The length is exact after every
call. A call is finitely many passes, and every state that passes lead to is
faultless; slots and places are in range by their types. -/
theorem calls_produce_every_item_once :
    ∃ places : Equiv.Perm (Fin sequence.items.length),
      (∀ k, ((sequence.start clock).after k).next.1 =
        if h : k < sequence.items.length then some (sequence.items.get (places ⟨k, h⟩))
        else none) ∧
      (∀ k, ((sequence.start clock).after k).length =
          sequence.items.length - ((sequence.start clock).answers k).countP (·.isSome) ∧
        ((sequence.start clock).after k).sizeHint =
          (((sequence.start clock).after k).length, some ((sequence.start clock).after k).length)) ∧
      (∀ k, ((sequence.start clock).after k).Reaches ((sequence.start clock).after (k + 1))) ∧
      ∀ s, (sequence.start clock).Reaches s → s.progress.Faultless := by
  have hconsistent := sequence.initial_consistent clock
  refine ⟨Equiv.ofBijective _ (sequence.finalSlots_bijective clock), ?_, ?_, ?_, ?_⟩
  · exact sequence.next_after_start clock
  · intro k
    refine ⟨?_, rfl⟩
    rw [sequence.length_after_start clock, sequence.countP_answers clock]
    omega
  · intro k
    rw [Sorted.after_eq, Sorted.after_eq]
    exact ⟨_, (hconsistent.after _ k).next_passes _, rfl⟩
  · rintro s ⟨p, hpasses, rfl⟩
    exact (hconsistent.passes hpasses).faultless

end Sequence

end TextKit.Sorting
