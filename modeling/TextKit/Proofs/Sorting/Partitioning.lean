import TextKit.Proofs.Sorting.Bookkeeping
import TextKit.Proofs.Sorting.Runs

/-!
# What partitioning a span achieves

Nothing is assumed of the comparison. The pivot that the source selects goes to some slot of the
span, with the places that do not compare greater than it in front and those that do behind. Each of
the other places has then been compared with the pivot, and nothing else was compared.
-/

namespace TextKit.Sorting

variable {α : Type} {n : Nat}

/-- The arrangement `b` is `a` with a span partitioned around the place that ends up in `slot`, by
the given comparisons. -/
structure Partitioned (order : Fin n → Fin n → Ordering) (span : Span n) (a b : Arrangement n)
    (slot : Fin n) (comparisons : List (Fin n × Fin n)) : Prop where
  start_le : span.start ≤ slot.val
  lt_stop : slot.val < span.stop
  outside : ∀ i : Fin n, i.val < span.start ∨ span.stop ≤ i.val → b.place i = a.place i
  perm : (b.run span.start span.stop).Perm (a.run span.start span.stop)
  front : ∀ i : Fin n, span.start ≤ i.val → i.val < slot.val →
    order (b.place i) (b.place slot) ≠ .gt
  back : ∀ i : Fin n, slot.val < i.val → i.val < span.stop →
    order (b.place i) (b.place slot) = .gt
  /-- The other places of the span, each once, are compared with the pivot. -/
  compared : ∃ others : List (Fin n), comparisons = others.map (·, b.place slot) ∧
    others.Nodup ∧ (b.place slot :: others).Perm (a.run span.start span.stop)
  length_comparisons : comparisons.length = span.size - 1

variable {order : Fin n → Fin n → Ordering}

/-- The places of a run without one of them, and then that one. -/
theorem perm_run_of_others {a : Arrangement n} {lo hi : Nat} {p : Fin n} {others : List (Fin n)}
    (ha : Function.Injective a.place) (hhi : hi ≤ n) (hp : Stands a lo hi p)
    (hnodup : others.Nodup) (hmem : ∀ x, x ∈ others ↔ Stands a lo hi x ∧ x ≠ p) :
    (p :: others).Perm (a.run lo hi) := by
  have hrun := lists_run ha lo hhi
  have hfirst : (p :: others).Nodup := by
    refine List.nodup_cons.mpr ⟨?_, hnodup⟩
    rw [hmem]
    exact fun h => h.2 rfl
  refine (List.perm_ext_iff_of_nodup hfirst hrun.nodup).mpr fun x => ?_
  rw [List.mem_cons, hmem, hrun.mem_iff]
  by_cases hx : x = p
  · simp [hx, hp]
  · simp [hx]

/-- Partitioning around a slot of the span, whichever it is. -/
theorem Draft.partition_partitioned (order : Fin n → Fin n → Ordering) (span : Span n)
    (pivotSlot : Nat) (hpivot : span.start ≤ pivotSlot ∧ pivotSlot < span.stop)
    (a : Arrangement n) (ha : Function.Injective a.place) :
    ∃ slot : Fin n, (partition order span pivotSlot hpivot ⟨a, #[]⟩).2.val = slot.val ∧
      Partitioned order span a (partition order span pivotSlot hpivot ⟨a, #[]⟩).1.slots slot
        (partition order span pivotSlot hpivot ⟨a, #[]⟩).1.comparisons.toList := by
  have hmove := partition_rearranges order span pivotSlot hpivot ⟨a, #[]⟩
  obtain ⟨pivot, hplace, hfront, hback⟩ := partition_zones order span pivotSlot hpivot ⟨a, #[]⟩
  obtain ⟨pivot', others, hplace', hlog, hnodup, hmem⟩ :=
    partition_comparisons order span pivotSlot hpivot ⟨a, #[]⟩ ha
  generalize partition order span pivotSlot hpivot ⟨a, #[]⟩ = result at *
  obtain ⟨draft, slot, hslot⟩ := result
  have hn : slot < n := Nat.lt_of_lt_of_le hslot.2 span.stop_le
  -- The two lemmas name the same pivot.
  obtain rfl : draft.slots.place ⟨slot, hn⟩ = pivot := hplace ⟨slot, hn⟩ rfl
  obtain rfl : draft.slots.place ⟨slot, hn⟩ = pivot' := hplace' ⟨slot, hn⟩ rfl
  have hstands : Stands a span.start span.stop (draft.slots.place ⟨slot, hn⟩) :=
    (hmove.stands_iff (.inl ⟨Nat.le_refl _, Nat.le_refl _⟩)).mp
      (Stands.of_slot draft.slots hn hslot.1 hslot.2)
  have hperm := perm_run_of_others ha span.stop_le hstands hnodup hmem
  have hlog' : draft.comparisons.toList = others.map (·, draft.slots.place ⟨slot, hn⟩) := by
    rw [hlog, List.nil_append]
  refine ⟨⟨slot, hn⟩, rfl, ?_⟩
  constructor
  case start_le => exact hslot.1
  case lt_stop => exact hslot.2
  case outside => exact fun i hi => hmove.outside hi
  case perm => exact hmove.run_perm span.start_le_stop span.stop_le
  case front => exact fun i hi hlt => Ordering.isLE_iff_ne_gt.mp (hfront i hi hlt)
  case back => exact hback
  case compared => exact ⟨others, hlog', hnodup, hperm⟩
  case length_comparisons =>
    have hlength := hperm.length_eq
    rw [List.length_cons, length_run a span.start span.stop_le] at hlength
    rw [hlog', List.length_map, Span.size]
    omega

namespace Progress

/-- A span that is not empty is partitioned around one of its places, whatever the state of the
source that selects it and whatever the comparison answers, provided that no place stands twice. -/
theorem cut_partitioned (order : Fin n → Fin n → Ordering) (span : Span n)
    (nonempty : span.start < span.stop) (s : Progress α n)
    (distinct : Function.Injective s.slots.place) :
    ∃ slot : Fin n, (s.cut order span nonempty).2.val = slot.val ∧
      Partitioned order span s.slots (s.cut order span nonempty).1.slots slot
        (s.cut order span nonempty).1.comparisons.toList :=
  Draft.partition_partitioned order span _
    ⟨s.source.advance.start_le_select .., s.source.advance.select_lt_stop nonempty⟩ s.slots distinct

/-- Each of four places comes before the next one only, and the last before the first. -/
def rotation : Fin 4 → Fin 4 → Ordering :=
  fun l r => if l = r then .eq else if l + 1 = r then .lt else .gt

/-- A comparison that is not transitive, and by which two places can each come after the other. -/
theorem cut_partitioned_of_rotation :
    let span : Span 4 := ⟨1, 4, by decide, by decide⟩
    let s : Progress Nat 4 := start #v[10, 20, 30, 40] (PivotSource.ofSeed 0)
    span.start < span.stop ∧ Function.Injective s.slots.place ∧
      ∃ (nonempty : span.start < span.stop) (slot : Fin 4),
        (s.cut rotation span nonempty).2.val = slot.val ∧
        Partitioned rotation span s.slots (s.cut rotation span nonempty).1.slots slot
          (s.cut rotation span nonempty).1.comparisons.toList := by
  intro span s
  have nonempty : span.start < span.stop := by decide
  have distinct : Function.Injective s.slots.place := (consistent_start _ _).injective
  exact ⟨nonempty, distinct, nonempty, cut_partitioned rotation span nonempty s distinct⟩

end Progress

end TextKit.Sorting
