import TextKit.Proofs.Sorting.Order
import TextKit.Proofs.Sorting.Production
import TextKit.Proofs.Sorting.Sortedness

/-!
# Draining gives the stable sort

In every state of a sort the slots that are ready, and those that were given up, are
in order, and each pending span ends in a slot that divides the arrangement. A visit
to the nearest span keeps this. When all items have been produced, the whole
arrangement is in order.

Different places never tie, so there is only one such arrangement, and neither the
pivots nor the way in which a sequence was described can show in the result.
-/

namespace TextKit.Sorting

variable {α : Type} {n : Nat}

namespace Progress

/-- What has been visited is in order, and what has not been is divided. -/
structure Ordered (order : Fin n → Fin n → Ordering) (s : Progress α n) : Prop where
  settled : SortedOn order s.slots 0 s.ready.stop
  divided : ∀ span ∈ s.ready :: s.pending, DividedAt order s.slots span.stop

theorem ordered_start (order : Fin n → Fin n → Ordering) (items : Vector α n)
    (source : PivotSource) : (start items source).Ordered order where
  settled i j hi hij hj := absurd hj (Nat.not_lt_zero _)
  divided span hspan := by
    intro i j hi hj
    rcases List.mem_cons.mp hspan with rfl | hspan
    · exact absurd hi (Nat.not_lt_zero _)
    · obtain rfl := List.mem_singleton.mp hspan
      exact absurd j.isLt (Nat.not_lt.mpr hj)

namespace Ordered

variable {order : Fin n → Fin n → Ordering} {items : Vector α n} {s t : Progress α n}
variable {span : Span n} {rest : List (Span n)}

/-- Rearranging the nearest span keeps the arrangement divided at both of its ends
and further on. -/
theorem keep (h : s.Ordered order) (hstart : span.start = s.ready.stop)
    (htiles : Tiles span.stop rest) (nearest : s.pending = span :: rest) {b : Arrangement n}
    (hmove : Rearranges span.start span.stop s.slots b) :
    DividedAt order b span.start ∧ ∀ other ∈ span :: rest, DividedAt order b other.stop := by
  constructor
  · rw [hstart]
    exact (h.divided s.ready List.mem_cons_self).rearrange hmove (.inl (Nat.le_of_eq hstart.symm))
  · intro other hother
    have hle : span.stop ≤ other.stop := by
      rcases List.mem_cons.mp hother with rfl | hother
      · exact Nat.le_refl _
      · exact htiles.le_stop hother
    rw [← nearest] at hother
    exact (h.divided other (List.mem_cons_of_mem _ hother)).rearrange hmove (.inr hle)

theorem settle [Std.TransCmp order] (h : s.Ordered order) (hstart : span.start = s.ready.stop)
    (htiles : Tiles span.stop rest) (nearest : s.pending = span :: rest) :
    (s.settle order span rest).Ordered order := by
  have hmove := Draft.insertionSort_rearranges order span ⟨s.slots, #[]⟩
  obtain ⟨hdivided, hpending⟩ := h.keep hstart htiles nearest hmove
  have hbefore := h.settled.rearrange hmove (Nat.le_of_eq hstart.symm)
  rw [← hstart] at hbefore
  exact ⟨hbefore.append (Draft.insertionSort_sortedOn span _) hdivided, hpending⟩

theorem split [Std.TransCmp order] (h : s.Ordered order) (hstart : span.start = s.ready.stop)
    (htiles : Tiles span.stop rest) (nearest : s.pending = span :: rest)
    (hspan : span.start < span.stop) : (s.split order span hspan rest).Ordered order := by
  have hmove := cut_rearranges order span hspan s
  obtain ⟨hdivided, hpending⟩ := h.keep hstart htiles nearest hmove
  obtain ⟨hstop, hrest⟩ := List.forall_mem_cons.mp hpending
  have hslot : ∀ k, (s.cut order span hspan).2.val ≤ k ∧ k ≤ (s.cut order span hspan).2.val + 1 →
      DividedAt order (s.cut order span hspan).1.slots k :=
    fun k hk => Draft.partition_dividedAt span _
      ⟨s.source.advance.start_le_select .., s.source.advance.select_lt_stop hspan⟩ ⟨s.slots, #[]⟩
      hdivided hstop hk
  refine ⟨h.settled.rearrange hmove (Nat.le_of_eq hstart.symm), ?_⟩
  intro other hother
  change other ∈ s.ready :: span.before _ _ :: span.single _ _ :: span.after _ _ :: rest at hother
  simp only [List.mem_cons] at hother
  rcases hother with rfl | rfl | rfl | rfl | hother
  · exact hstart ▸ hdivided
  · exact hslot _ ⟨Nat.le_refl _, Nat.le_succ _⟩
  · exact hslot _ ⟨Nat.le_succ _, Nat.le_refl _⟩
  · exact hstop
  · exact hrest other hother

/-- Passes keep the order. -/
theorem passes [Std.TransCmp order] (h : s.Ordered order) (hs : s.Consistent items)
    (hpasses : Passes order s t) : t.Ordered order := by
  refine hs.induction h ?_ ?_ ?_ hpasses
  · intro s hready _ h
    obtain ⟨hstop, hpending⟩ := List.forall_mem_cons.mp h.divided
    exact ⟨h.settled, List.forall_mem_cons.mpr ⟨hstop, hpending⟩⟩
  · intro s span rest _ nearest hstart htiles h
    exact h.settle hstart htiles nearest
  · intro s span rest _ nearest hstart htiles hspan _ h
    exact h.split hstart htiles nearest hspan

/-- When nothing remains, all slots are in order. -/
theorem sortedOn_of_remaining (h : s.Ordered order) (hs : s.Consistent items)
    (hzero : s.remaining = 0) : SortedOn order s.slots 0 n := by
  have hsettled := h.settled
  rwa [hs.ready_stop_of_remaining hzero] at hsettled

end Ordered

end Progress

namespace Sequence

theorem finalSlots_sortedOn (sequence : Sequence α) (clock : UInt64)
    (consistent : ∀ level ∈ sequence.levels, Std.TransCmp level.compare) :
    SortedOn sequence.order (sequence.finalSlots clock) 0 sequence.items.length := by
  have horder : Std.TransCmp sequence.order := Chain.transCmp_order consistent sequence.source
  have hs := sequence.initial_consistent clock
  have hpasses := hs.passes_after sequence.order (Nat.zero_le sequence.items.length)
  have hzero := hs.remaining_after sequence.order sequence.items.length
  exact ((Progress.ordered_start _ _ _).passes hs hpasses).sortedOn_of_remaining
    (hs.after _ _) (hzero.trans (Nat.sub_self _))

/-- The lexicographic order of the items, with ties broken by place. -/
def Precedes (items : List α) (levels : List (Level α)) (l r : Fin items.length) : Prop :=
  lexOrder levels (items.get l) (items.get r) = .lt ∨
    lexOrder levels (items.get l) (items.get r) = .eq ∧ l < r

instance (items : List α) (levels : List (Level α)) (l r : Fin items.length) :
    Decidable (Precedes items levels l r) :=
  inferInstanceAs (Decidable (_ ∨ _))

theorem places_pairwise (sequence : Sequence α) (clock : UInt64)
    (consistent : ∀ level ∈ sequence.levels, Std.TransCmp level.compare) :
    (sequence.places clock).Pairwise (Precedes sequence.items sequence.levels) := by
  have hsorted := sequence.finalSlots_sortedOn clock consistent
  apply List.pairwise_map.mpr
  apply (List.pairwise_lt_finRange _).imp
  intro i j hij
  have hle := hsorted i j (Nat.zero_le _) hij j.isLt
  rcases Ordering.isLE_iff_eq_lt_or_eq_eq.mp hle with hlt | heq
  · exact Chain.order_eq_lt_iff.mp hlt
  · have hij' := (sequence.finalSlots_bijective clock).injective (Chain.eq_of_order_eq heq)
    exact absurd hij' (Fin.ne_of_lt hij)

theorem Precedes.asymm {items : List α} {levels : List (Level α)}
    [Std.OrientedCmp (lexOrder levels)] {l r : Fin items.length} (h : Precedes items levels l r) :
    ¬ Precedes items levels r l := by
  have hswap : lexOrder levels (items.get r) (items.get l) =
      (lexOrder levels (items.get l) (items.get r)).swap := Std.OrientedCmp.eq_swap
  unfold Precedes
  rw [hswap]
  rcases h with hlt | ⟨heq, hlt⟩
  · rw [hlt]
    simp
  · rw [heq]
    simp [Fin.le_of_lt hlt]

/-- How a caller describes a sequence over some items: by a first level, further
levels after it, and seeds at any time. -/
inductive Described (items : List α) : List (Level α) → Sequence α → Prop where
  | orderBy (level : Level α) : Described items [level] (orderBy items level)
  | thenBy {levels : List (Level α)} {s : Sequence α} (h : Described items levels s)
      (level : Level α) : Described items (levels ++ [level]) (s.thenBy level)
  | withSeed {levels : List (Level α)} {s : Sequence α} (h : Described items levels s)
      (seed : UInt64) : Described items levels (s.withSeed seed)

theorem Described.eq {items : List α} {levels : List (Level α)} {s : Sequence α}
    (h : Described items levels s) : ∃ seed, s = ⟨items, levels, seed⟩ := by
  induction h with
  | orderBy level => exact ⟨none, rfl⟩
  | thenBy _ level ih =>
      obtain ⟨seed, rfl⟩ := ih
      exact ⟨seed, rfl⟩
  | withSeed _ seed ih =>
      obtain ⟨_, rfl⟩ := ih
      exact ⟨some seed, rfl⟩

/-- However a sequence is described, and whichever seed or clock it is given, draining
it gives the same stable sort. -/
theorem drain_stable (items : List α) (levels : List (Level α))
    (consistent : ∀ level ∈ levels, Std.TransCmp level.compare) :
    ∃ places : List (Fin items.length),
      places.Perm (List.finRange items.length) ∧
      places.Pairwise (Precedes items levels) ∧
      ∀ s, Described items levels s → ∀ clock, (s.start clock).drain.1 = places.map items.get := by
  have hlex := transCmp_lexOrder consistent
  have hpairwise := places_pairwise ⟨items, levels, none⟩ 0 consistent
  refine ⟨places ⟨items, levels, none⟩ 0, places_perm _ _, hpairwise, ?_⟩
  intro s hs clock
  obtain ⟨seed, rfl⟩ := hs.eq
  have hplaces : places ⟨items, levels, seed⟩ clock = places ⟨items, levels, none⟩ 0 :=
    List.Perm.eq_of_pairwise (fun _ _ _ _ hlr hrl => absurd hrl hlr.asymm)
      (places_pairwise ⟨items, levels, seed⟩ clock consistent) hpairwise
      ((places_perm ⟨items, levels, seed⟩ clock).trans (places_perm ⟨items, levels, none⟩ 0).symm)
  rw [drain_eq, hplaces]

/-- Some of these items tie on a descending level, and some of those on another one. -/
theorem drain_stable_of_two_levels :
    ((((orderBy [(1, 15), (2, 3), (1, 5), (2, 13), (1, 2)] ⟨Prod.fst, compare, .descending⟩).thenBy
      ⟨fun item => item.2 % 10, compare, .ascending⟩).withSeed 7).start 0).drain.1 =
        [(2, 3), (2, 13), (1, 2), (1, 15), (1, 5)] := by
  have consistent : ∀ level ∈ ([⟨Prod.fst, compare, .descending⟩,
      ⟨fun item => item.2 % 10, compare, .ascending⟩] : List (Level (Nat × Nat))),
      Std.TransCmp level.compare := by
    intro level hlevel
    simp only [List.mem_cons, List.not_mem_nil, or_false] at hlevel
    rcases hlevel with rfl | rfl
    · exact inferInstanceAs (Std.TransCmp (compare : Nat → Nat → Ordering))
    · exact inferInstanceAs (Std.TransCmp (compare : Nat → Nat → Ordering))
  have hlex := transCmp_lexOrder consistent
  obtain ⟨places, hperm, hpairwise, hdrain⟩ :=
    drain_stable [(1, 15), (2, 3), (1, 5), (2, 13), (1, 2)] _ consistent
  have hplaces : places = [1, 3, 4, 0, 2] :=
    List.Perm.eq_of_pairwise (fun _ _ _ _ hlr hrl => absurd hrl hlr.asymm) hpairwise (by decide)
      (hperm.trans (by decide))
  rw [hdrain _ (.withSeed (.thenBy (.orderBy _) _) 7) 0, hplaces]
  rfl

end Sequence

end TextKit.Sorting
