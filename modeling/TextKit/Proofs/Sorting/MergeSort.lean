import TextKit.Proofs.Sorting.StableSort

/-!
# Taking from a stream takes from the merge sort

A stable sort of a list is determined by its order. If the levels of a sequence are
consistent, its stream therefore gives the items as a merge sort by the lexicographic order
of the levels does, and taking some of them gives the first items of that.

Items may repeat, so it is not the items that are determined by the order but the items
together with their places.
-/

namespace TextKit.Sorting

variable {α : Type}

/-- Whether an item does not compare greater than another one. -/
def notAfter (cmp : α → α → Ordering) (a b : α) : Bool := (cmp a b).isLE

section Consistent

variable {cmp : α → α → Ordering} [Std.TransCmp cmp]

theorem notAfter_trans (a b c : α) (hab : notAfter cmp a b = true)
    (hbc : notAfter cmp b c = true) : notAfter cmp a c = true :=
  Std.TransCmp.isLE_trans hab hbc

theorem notAfter_total (a b : α) : (notAfter cmp a b || notAfter cmp b a) = true := by
  have hswap : cmp b a = (cmp a b).swap := Std.OrientedCmp.eq_swap
  rw [notAfter, notAfter, hswap]
  cases cmp a b <;> rfl

end Consistent

/-- Two items of which neither is after the other have the same place. -/
theorem snd_eq_of_zipIdxLE {le : α → α → Bool} {a b : α × Nat}
    (hab : List.zipIdxLE le a b = true) (hba : List.zipIdxLE le b a = true) : a.2 = b.2 := by
  unfold List.zipIdxLE at hab hba
  by_cases hle : le a.1 b.1 = true
  · by_cases hge : le b.1 a.1 = true
    · simp only [hle, hge, if_true, decide_eq_true_eq] at hab hba
      exact Nat.le_antisymm hab hba
    · simp [hge] at hba
  · simp [hle] at hab

namespace Sequence

/-- An item together with its place. -/
def numbered (items : List α) (i : Fin items.length) : α × Nat := (items.get i, i.val)

theorem map_numbered_finRange (items : List α) :
    (List.finRange items.length).map (numbered items) = items.zipIdx := by
  apply List.ext_getElem
  · simp
  · intro k h _
    simp [numbered]

theorem Precedes.zipIdxLE {items : List α} {levels : List (Level α)}
    [Std.OrientedCmp (lexOrder levels)] {l r : Fin items.length} (h : Precedes items levels l r) :
    List.zipIdxLE (notAfter (lexOrder levels)) (numbered items l) (numbered items r) = true := by
  have hswap : lexOrder levels (items.get r) (items.get l) =
      (lexOrder levels (items.get l) (items.get r)).swap := Std.OrientedCmp.eq_swap
  rw [List.zipIdxLE, numbered, numbered, notAfter, notAfter, hswap]
  obtain hlt | ⟨heq, hlt⟩ := h
  · rw [hlt]
    rfl
  · rw [heq]
    exact decide_eq_true (Nat.le_of_lt hlt)

variable (sequence : Sequence α) (clock : UInt64)
variable (consistent : ∀ level ∈ sequence.levels, Std.TransCmp level.compare)

include consistent

theorem map_numbered_places : (sequence.places clock).map (numbered sequence.items) =
    sequence.items.zipIdx.mergeSort (List.zipIdxLE (notAfter (lexOrder sequence.levels))) := by
  have hlex := transCmp_lexOrder consistent
  have hpairwise : ((sequence.places clock).map (numbered sequence.items)).Pairwise
      fun a b => List.zipIdxLE (notAfter (lexOrder sequence.levels)) a b = true :=
    List.pairwise_map.mpr ((sequence.places_pairwise clock consistent).imp Precedes.zipIdxLE)
  have hmerged := List.pairwise_mergeSort
    (List.zipIdxLE_trans (@notAfter_trans _ (lexOrder sequence.levels) _))
    (List.zipIdxLE_total (@notAfter_total _ (lexOrder sequence.levels) _)) sequence.items.zipIdx
  have hperm := (sequence.places_perm clock).map (numbered sequence.items)
  rw [map_numbered_finRange] at hperm
  have hboth := hperm.trans
    (List.mergeSort_perm _ (List.zipIdxLE (notAfter (lexOrder sequence.levels)))).symm
  apply List.Perm.eq_of_pairwise _ hpairwise hmerged hboth
  intro a b ha hb hab hba
  obtain ⟨i, -, rfl⟩ := List.mem_map.mp ha
  obtain ⟨j, -, rfl⟩ := List.mem_map.mp (hboth.mem_iff.mpr hb)
  exact congrArg (numbered sequence.items) (Fin.ext (snd_eq_of_zipIdxLE hab hba))

/-- Taking from a stream gives the first items of the merge sort. -/
theorem take_eq_mergeSort (m : Nat) : ((sequence.start clock).take m).1 =
    (sequence.items.mergeSort (notAfter (lexOrder sequence.levels))).take m := by
  have hsorted := congrArg (List.map Prod.fst) (sequence.map_numbered_places clock consistent)
  rw [List.mergeSort_zipIdx, List.map_map] at hsorted
  rw [take_eq, ← hsorted]
  rfl

/-- Draining a stream gives the merge sort. -/
theorem drain_eq_mergeSort : (sequence.start clock).drain.1 =
    sequence.items.mergeSort (notAfter (lexOrder sequence.levels)) := by
  have hlength : (sequence.start clock).length = sequence.items.length :=
    sequence.length_after_start clock 0
  rw [Sorted.drain, sequence.take_eq_mergeSort clock consistent,
    List.take_of_length_le (by simp [hlength])]

end Sequence

end TextKit.Sorting
