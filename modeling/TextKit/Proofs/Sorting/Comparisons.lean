import Mathlib.Data.Sym.Card
import TextKit.Proofs.Sorting.Rearrangement

/-!
# The comparisons of one span

Sorting a span by insertion compares only places of the span, and partitioning it compares
each of them once with the pivot, except for the pivot itself. In both cases no two places
are compared twice, in whichever order, although nothing is known of the answers.

For a sweep this is so because it reads every slot before a place from behind could have
been moved there. For insertion it is because the value that is held has stood behind all
places compared before, and then meets each place in front of it at most once.
-/

namespace TextKit.Sorting

variable {n : Nat}

/-- A place stands in one of the slots from `lo` up to, excluding, `hi`. -/
def Stands (a : Arrangement n) (lo hi : Nat) (p : Fin n) : Prop :=
  ∃ i : Fin n, lo ≤ i.val ∧ i.val < hi ∧ a.place i = p

namespace Stands

variable {a b : Arrangement n} {lo hi l r : Nat} {p : Fin n}

theorem of_slot (a : Arrangement n) {slot : Nat} (h : slot < n) (hlo : lo ≤ slot)
    (hhi : slot < hi) : Stands a lo hi (a.place ⟨slot, h⟩) :=
  ⟨⟨slot, h⟩, hlo, hhi, rfl⟩

theorem mono (h : Stands a lo hi p) (hlo : l ≤ lo) (hhi : hi ≤ r) : Stands a l r p := by
  obtain ⟨i, hi', hlt, hplace⟩ := h
  exact ⟨i, Nat.le_trans hlo hi', Nat.lt_of_lt_of_le hlt hhi, hplace⟩

/-- A place that stands in one run of slots does not stand in another. -/
theorem not_stands (h : Stands a lo hi p) (ha : Function.Injective a.place)
    (happart : hi ≤ l ∨ r ≤ lo) : ¬ Stands a l r p := by
  rintro ⟨j, hl, hr, rfl⟩
  obtain ⟨i, hlo, hhi, hplace⟩ := h
  obtain rfl := ha hplace
  omega

/-- In a run of slots stands the place of its first slot, and what stands behind it. -/
theorem iff_first (h : lo < n) (hlt : lo < hi) :
    Stands a lo hi p ↔ p = a.place ⟨lo, h⟩ ∨ Stands a (lo + 1) hi p := by
  constructor
  · rintro ⟨i, hlo, hhi, rfl⟩
    by_cases hi' : i.val = lo
    · exact .inl (congrArg a.place (Fin.ext hi'))
    · exact .inr ⟨i, by omega, hhi, rfl⟩
  · rintro (rfl | hrest)
    · exact of_slot a h (Nat.le_refl _) hlt
    · exact hrest.mono (Nat.le_succ _) (Nat.le_refl _)

end Stands

/-- A run of slots that has all of the slots that were rearranged, or none, keeps its places. -/
theorem Rearranges.stands_iff {a b : Arrangement n} {lo hi l r : Nat} {p : Fin n}
    (h : Rearranges lo hi a b) (hside : l ≤ lo ∧ hi ≤ r ∨ hi ≤ l ∨ r ≤ lo) :
    Stands b l r p ↔ Stands a l r p := by
  constructor
  · rintro ⟨i, hl, hr, rfl⟩
    obtain ⟨j, hl', hr', hplace⟩ := h.within hside hl hr
    exact ⟨j, hl', hr', hplace.symm⟩
  · rintro ⟨i, hl, hr, rfl⟩
    obtain ⟨j, hl', hr', hplace⟩ := h.symm.within hside hl hr
    exact ⟨j, hl', hr', hplace.symm⟩

/-- The places in the slots from `lo` up to `hi`, each of them once. -/
structure Lists (a : Arrangement n) (lo hi : Nat) (places : List (Fin n)) : Prop where
  nodup : places.Nodup
  mem_iff : ∀ x, x ∈ places ↔ Stands a lo hi x

namespace Lists

variable {a : Arrangement n} {lo hi : Nat} {places : List (Fin n)}

theorem nil (h : hi ≤ lo) : Lists a lo hi [] := by
  refine ⟨List.nodup_nil, ?_⟩
  intro x
  simp only [List.not_mem_nil, false_iff]
  rintro ⟨i, hlo, hhi, -⟩
  omega

/-- The place of one more slot in front is none of those listed. -/
theorem cons (h : Lists a (lo + 1) hi places) (ha : Function.Injective a.place) (hlo : lo < n)
    (hlt : lo < hi) : Lists a lo hi (a.place ⟨lo, hlo⟩ :: places) := by
  have hfirst : Stands a lo (lo + 1) (a.place ⟨lo, hlo⟩) :=
    Stands.of_slot a hlo (Nat.le_refl _) (Nat.lt_succ_self _)
  refine ⟨List.nodup_cons.mpr ⟨?_, h.nodup⟩, ?_⟩
  · rw [h.mem_iff]
    exact hfirst.not_stands ha (.inl (Nat.le_refl _))
  · intro x
    rw [List.mem_cons, h.mem_iff, Stands.iff_first hlo hlt]

end Lists

/-- Each comparison is of two different places, and no other one is of the same two. -/
structure Unrepeated (log : List (Fin n × Fin n)) : Prop where
  ne : ∀ p ∈ log, p.1 ≠ p.2
  nodup : (log.map fun p => s(p.1, p.2)).Nodup

namespace Unrepeated

variable {log log' : List (Fin n × Fin n)}

theorem nil : Unrepeated ([] : List (Fin n × Fin n)) :=
  ⟨fun _ hp => absurd hp List.not_mem_nil, List.nodup_nil⟩

theorem append (h : Unrepeated log) (h' : Unrepeated log')
    (hother : ∀ p ∈ log, ∀ q ∈ log', s(p.1, p.2) ≠ s(q.1, q.2)) : Unrepeated (log ++ log') := by
  refine ⟨List.forall_mem_append.mpr ⟨h.ne, h'.ne⟩, ?_⟩
  rw [List.map_append, List.nodup_append]
  refine ⟨h.nodup, h'.nodup, ?_⟩
  intro e he e' he'
  obtain ⟨p, hp, rfl⟩ := List.mem_map.mp he
  obtain ⟨q, hq, rfl⟩ := List.mem_map.mp he'
  exact hother p hp q hq

/-- One place may be compared with any number of others, once with each. -/
theorem with_value {others : List (Fin n)} (h : others.Nodup) {value : Fin n}
    (hvalue : value ∉ others) : Unrepeated (others.map (·, value)) := by
  constructor
  · intro p hp
    obtain ⟨x, hx, rfl⟩ := List.mem_map.mp hp
    exact ne_of_mem_of_not_mem hx hvalue
  · rw [List.map_map]
    exact h.map fun x y hxy => Sym2.congr_left.mp hxy

/-- There are only so many pairs of different places. -/
theorem length_le (h : Unrepeated log) : log.length ≤ n * (n - 1) / 2 := by
  have hpairs : (log.map fun p => s(p.1, p.2)).toFinset ⊆
      Finset.univ.filter fun e : Sym2 (Fin n) => ¬ e.IsDiag := by
    intro e he
    obtain ⟨p, hp, rfl⟩ := List.mem_map.mp (List.mem_toFinset.mp he)
    exact Finset.mem_filter.mpr ⟨Finset.mem_univ _, h.ne p hp⟩
  calc log.length
      = (log.map fun p => s(p.1, p.2)).toFinset.card := by
        rw [List.toFinset_card_of_nodup h.nodup, List.length_map]
    _ ≤ (Finset.univ.filter fun e : Sym2 (Fin n) => ¬ e.IsDiag).card := Finset.card_le_card hpairs
    _ = n * (n - 1) / 2 := by
        rw [← Fintype.card_subtype, Sym2.card_subtype_not_diag, Fintype.card_fin,
          Nat.choose_two_right]

end Unrepeated

namespace Draft

variable (order : Fin n → Fin n → Ordering)

/-- A value that is inserted is compared with places in front of the free slot only, each of
them once. What stands where is told with the value put back into that slot. -/
theorem insert_comparisons (start : Nat) (value : Fin n) (slot : Nat) (h : slot < n)
    (d : Draft n) (hinj : Function.Injective (Arrangement.place (d.slots.set slot value))) :
    ∃ others : List (Fin n), (insert order start value slot h d).comparisons.toList =
        d.comparisons.toList ++ others.map (·, value) ∧
      others.Nodup ∧ ∀ x ∈ others, Stands (d.slots.set slot value) start slot x := by
  induction slot generalizing d with
  | zero => exact ⟨[], by simp [insert], List.nodup_nil, by simp⟩
  | succ k ih =>
      have hk : k < n := Nat.lt_of_succ_lt h
      have hplace : Arrangement.place (d.slots.set (k + 1) value) ⟨k, hk⟩ = d.slots[k] := by
        rw [Arrangement.place_set, if_neg (by simp)]
        rfl
      unfold insert
      split
      · rename_i hstart
        have hprevious : Stands (d.slots.set (k + 1) value) start (k + 1) d.slots[k] :=
          hplace ▸ Stands.of_slot _ hk hstart (Nat.lt_succ_self k)
        dsimp only
        split
        · -- The place before moves up, which exchanges it with the value.
          have hslots : (((d.note d.slots[k] value).put (k + 1) h d.slots[k]).slots.set k value) =
              (d.slots.set (k + 1) value).swap k (k + 1) := set_set_eq_swap d.slots hk h value
          have hmove : Rearranges k (k + 2) (d.slots.set (k + 1) value) _ :=
            .swap _ hk h (by omega) (by omega)
          obtain ⟨others, hlog, hnodup, hstands⟩ := ih hk
            ((d.note d.slots[k] value).put (k + 1) h d.slots[k])
            (hslots ▸ hmove.injective hinj)
          simp only [hslots, hmove.stands_iff (.inr (.inr (Nat.le_refl k)))] at hstands
          refine ⟨d.slots[k] :: others, ?_, ?_, ?_⟩
          · rw [hlog]
            simp
          · refine List.nodup_cons.mpr ⟨?_, hnodup⟩
            intro hmem
            exact (hstands _ hmem).not_stands hinj (.inl (Nat.le_refl k))
              (hplace ▸ Stands.of_slot _ hk (Nat.le_refl k) (Nat.lt_succ_self k))
          · refine List.forall_mem_cons.mpr ⟨hprevious, ?_⟩
            intro x hx
            exact (hstands x hx).mono (Nat.le_refl _) (Nat.le_succ k)
        · refine ⟨[d.slots[k]], by simp, List.nodup_singleton _, ?_⟩
          exact List.forall_mem_singleton.mpr hprevious
      · exact ⟨[], by simp, List.nodup_nil, by simp⟩

/-- Insertion from slot `index` on compares places of the span, one of which stands there. -/
theorem insertFrom_comparisons (start stop : Nat) (hstop : stop ≤ n) (index : Nat)
    (hstart : start ≤ index) (d : Draft n) (hinj : Function.Injective d.slots.place) :
    ∃ log, (insertFrom order start stop hstop index d).comparisons.toList =
        d.comparisons.toList ++ log ∧
      Unrepeated log ∧
      ∀ p ∈ log, Stands d.slots start stop p.1 ∧ Stands d.slots index stop p.2 := by
  fun_induction insertFrom order start stop hstop index d with
  | case1 index d h ih =>
      have hindex : index < n := Nat.lt_of_lt_of_le h hstop
      have hmove := insert_rearranges order start d.slots[index] index hindex hstart d
      have hinsert := insert_comparisons order start d.slots[index] index hindex d
      simp only [Vector.set_getElem_self] at hmove hinsert
      obtain ⟨others, hlog, hnodup, hothers⟩ := hinsert hinj
      obtain ⟨log, hrest, hlater, hstands⟩ := ih (by omega) (hmove.injective hinj)
      simp only [hmove.stands_iff (.inl ⟨Nat.le_refl start, h⟩),
        hmove.stands_iff (.inr (.inl (Nat.le_refl (index + 1))))] at hstands
      have hvalue : Stands d.slots index (index + 1) d.slots[index] :=
        Stands.of_slot _ hindex (Nat.le_refl _) (Nat.lt_succ_self _)
      have hfirst : Unrepeated (others.map (·, d.slots[index])) :=
        .with_value hnodup fun hmem =>
          (hothers _ hmem).not_stands hinj (.inl (Nat.le_refl _)) hvalue
      refine ⟨others.map (·, d.slots[index]) ++ log, ?_, hfirst.append hlater ?_, ?_⟩
      · rw [hrest, hlog, List.append_assoc]
      · -- Later comparisons have a place from behind, which was not reached before.
        intro p hp q hq heq
        obtain ⟨x, hx, rfl⟩ := List.mem_map.mp hp
        have hbehind := (hstands q hq).2
        have hmem : q.2 ∈ s(x, d.slots[index]) := heq ▸ Sym2.mem_mk_right q.1 q.2
        obtain hq' | hq' := Sym2.mem_iff.mp hmem
        · rw [hq'] at hbehind
          exact hbehind.not_stands hinj (.inr (Nat.le_succ index)) (hothers x hx)
        · rw [hq'] at hbehind
          exact hbehind.not_stands hinj (.inr (Nat.le_refl _)) hvalue
      · refine List.forall_mem_append.mpr ⟨?_, ?_⟩
        · intro p hp
          obtain ⟨x, hx, rfl⟩ := List.mem_map.mp hp
          exact ⟨(hothers x hx).mono (Nat.le_refl _) (Nat.le_of_lt h),
            hvalue.mono (Nat.le_refl _) h⟩
        · intro p hp
          exact ⟨(hstands p hp).1, (hstands p hp).2.mono (Nat.le_succ _) (Nat.le_refl _)⟩
  | case2 index d h => exact ⟨[], by simp, .nil, by simp⟩

/-- Insertion sort compares places of its span, and no two of them twice. -/
theorem insertionSort_comparisons (span : Span n) (d : Draft n)
    (hinj : Function.Injective d.slots.place) :
    ∃ log, (insertionSort order span d).comparisons.toList = d.comparisons.toList ++ log ∧
      Unrepeated log ∧
      ∀ p ∈ log, Stands d.slots span.start span.stop p.1 ∧
        Stands d.slots span.start span.stop p.2 := by
  obtain ⟨log, hlog, hunrepeated, hstands⟩ := insertFrom_comparisons order span.start span.stop
    span.stop_le (span.start + 1) (Nat.le_succ _) d hinj
  refine ⟨log, hlog, hunrepeated, ?_⟩
  intro p hp
  exact ⟨(hstands p hp).1, (hstands p hp).2.mono (Nat.le_succ _) (Nat.le_refl _)⟩

/-- A sweep compares each place in front of it with the pivot once. -/
theorem sweep_comparisons (pivot : Fin n) (start last : Nat) (hlast : last < n)
    (store index : Nat) (hstore : start ≤ store ∧ store ≤ index) (hindex : index ≤ last)
    (d : Draft n) (hinj : Function.Injective d.slots.place) :
    ∃ others : List (Fin n),
      (sweep order pivot start last hlast store index hstore hindex d).1.comparisons.toList =
        d.comparisons.toList ++ others.map (·, pivot) ∧
      Lists d.slots index last others := by
  fun_induction sweep order pivot start last hlast store index hstore hindex d with
  | case1 store index hstore hindex d h place d' hgt ih =>
      obtain ⟨others, hlog, hothers⟩ := ih hinj
      refine ⟨place :: others, ?_, hothers.cons hinj (Nat.lt_trans h hlast) h⟩
      rw [hlog]
      simp [d']
  | case2 store index hstore hindex d h place d' hle ih =>
      have hmove : Rearranges store (index + 1) d.slots (d.slots.swap index store) :=
        .swap _ (Nat.lt_trans h hlast) (by omega) (by omega) (by omega)
      obtain ⟨others, hlog, hnodup, hmem⟩ := ih (hmove.injective hinj)
      simp only [d', slots_swap, slots_note,
        hmove.stands_iff (.inr (.inl (Nat.le_refl (index + 1))))] at hmem
      refine ⟨place :: others, ?_, Lists.cons ⟨hnodup, hmem⟩ hinj (Nat.lt_trans h hlast) h⟩
      rw [hlog]
      simp [d']
  | case3 store index hstore hindex d h => exact ⟨[], by simp, .nil (Nat.le_of_not_lt h)⟩

/-- Partitioning compares each place of its span with the pivot once, except for the pivot,
which stands in the slot returned. -/
theorem partition_comparisons (span : Span n) (pivotSlot : Nat)
    (hpivot : span.start ≤ pivotSlot ∧ pivotSlot < span.stop) (d : Draft n)
    (hinj : Function.Injective d.slots.place) :
    ∃ (pivot : Fin n) (others : List (Fin n)),
      (∀ i : Fin n, i.val = (partition order span pivotSlot hpivot d).2.val →
        (partition order span pivotSlot hpivot d).1.slots.place i = pivot) ∧
      (partition order span pivotSlot hpivot d).1.comparisons.toList =
        d.comparisons.toList ++ others.map (·, pivot) ∧
      others.Nodup ∧
      ∀ x, x ∈ others ↔ Stands d.slots span.start span.stop x ∧ x ≠ pivot := by
  have hstop := span.stop_le
  have hlast : span.stop - 1 < n := by omega
  obtain ⟨swept, hswept, hdraft, hend⟩ := partition_eq order span pivotSlot hpivot d
    (by omega) hlast (by omega)
  have hslot := swept.2.property
  have hmove : Rearranges span.start span.stop d.slots (d.slots.swap pivotSlot (span.stop - 1)) :=
    .swap _ (by omega) hlast hpivot (by omega)
  have hsweep : Rearranges span.start (span.stop - 1) _ swept.1.slots :=
    hswept ▸ sweep_rearranges ..
  have hinj' := hmove.injective hinj
  let pivot := (d.slots.swap pivotSlot (span.stop - 1))[span.stop - 1]
  obtain ⟨others, hlog, hothers⟩ : ∃ others : List (Fin n),
      swept.1.comparisons.toList = d.comparisons.toList ++ others.map (·, pivot) ∧
      Lists (d.slots.swap pivotSlot (span.stop - 1)) span.start (span.stop - 1) others := by
    rw [hswept]
    exact sweep_comparisons order _ _ _ _ _ _ _ _ _ hinj'
  refine ⟨pivot, others, ?_, ?_, hothers.nodup, ?_⟩
  · intro i hi
    rw [hdraft, slots_swap, Arrangement.place_swap, if_pos (hend ▸ hi)]
    exact hsweep.outside (.inr (Nat.le_refl _))
  · rw [hdraft, comparisons_swap, hlog]
  · intro x
    -- Without the pivot, which was moved to the end, the span is what the sweep covers.
    have hpivotLast : Stands (d.slots.swap pivotSlot (span.stop - 1)) (span.stop - 1) span.stop
        pivot := Stands.of_slot _ hlast (Nat.le_refl _) (by omega)
    rw [hothers.mem_iff, ← hmove.stands_iff (.inl ⟨Nat.le_refl _, Nat.le_refl _⟩)]
    constructor
    · intro hx
      refine ⟨hx.mono (Nat.le_refl _) (Nat.sub_le _ _), ?_⟩
      rintro rfl
      exact hx.not_stands hinj' (.inl (Nat.le_refl _)) hpivotLast
    · rintro ⟨⟨i, hlo, hhi, rfl⟩, hne⟩
      refine ⟨i, hlo, ?_, rfl⟩
      by_contra hle
      have hi : i = ⟨span.stop - 1, hlast⟩ := Fin.ext (show i.val = span.stop - 1 by omega)
      exact hne (hi ▸ rfl)

end Draft

end TextKit.Sorting
