import TextKit.Sorting.Level

/-!
# The order of a chain

Two items are ordered by the first level on which they do not tie, and a level that
is descending reverses the order of its keys. Items that tie on every level are not
told apart.

What is sorted are places, and their order refines the order of the items: places
whose items are not told apart go by number. If every level compares its keys
consistently, both orders are consistent, and two different places never tie.
-/

namespace TextKit.Sorting

variable {α : Type} {n : Nat}

/-- The order of two items by one level. -/
def Level.order (level : Level α) (a b : α) : Ordering :=
  level.direction.apply (level.compare (level.key a) (level.key b))

/-- The lexicographic order of two items by a list of levels. -/
def lexOrder : List (Level α) → α → α → Ordering
  | [], _, _ => .eq
  | level :: rest, a, b => (level.order a b).then (lexOrder rest a b)

theorem Direction.transCmp_apply {Key : Type} (direction : Direction) (cmp : Key → Key → Ordering)
    [Std.TransCmp cmp] : Std.TransCmp fun a b => direction.apply (cmp a b) := by
  cases direction with
  | ascending => exact inferInstanceAs (Std.TransCmp cmp)
  | descending =>
      have hswap : (fun a b => descending.apply (cmp a b)) = fun a b => cmp b a := by
        funext a b
        exact Std.OrientedCmp.eq_swap.symm
      rw [hswap]
      infer_instance

private theorem transCmp_comap {β : Type} (f : β → α) (cmp : α → α → Ordering)
    [Std.TransCmp cmp] : Std.TransCmp fun a b => cmp (f a) (f b) where
  eq_swap {a b} := (Std.OrientedCmp.eq_swap : cmp (f a) (f b) = (cmp (f b) (f a)).swap)
  isLE_trans {_ _ _} hab hbc := Std.TransCmp.isLE_trans hab hbc

theorem Level.transCmp_order (level : Level α) (h : Std.TransCmp level.compare) :
    Std.TransCmp level.order := by
  have hkeys := level.direction.transCmp_apply level.compare
  exact transCmp_comap level.key fun a b => level.direction.apply (level.compare a b)

/-- Consistent levels give a consistent lexicographic order. -/
theorem transCmp_lexOrder {levels : List (Level α)}
    (h : ∀ level ∈ levels, Std.TransCmp level.compare) : Std.TransCmp (lexOrder levels) := by
  induction levels with
  | nil => exact { eq_swap := rfl, isLE_trans := fun _ _ => rfl }
  | cons level rest ih =>
      obtain ⟨hlevel, hrest⟩ := List.forall_mem_cons.mp h
      have horder := level.transCmp_order hlevel
      have hlex := ih hrest
      exact inferInstanceAs (Std.TransCmp (compareLex level.order (lexOrder rest)))

namespace Chain

/-- The places of a sequence are ordered by their items, and by number where their
items tie on every level. -/
theorem order_ofLevels (levels : List (Level α)) (items : Vector α n) (l r : Fin n) :
    (ofLevels levels items).order l r =
      (lexOrder levels (items.get l) (items.get r)).then (compare l.val r.val) := by
  induction levels with
  | nil => rfl
  | cons level rest ih =>
      have hkey : ∀ i : Fin n, (items.map level.key)[i] = level.key (items.get i) :=
        fun i => Vector.getElem_map level.key i.isLt
      have hkeys : (level.keyed items).order l r =
          level.compare (level.key (items.get l)) (level.key (items.get r)) := by
        rw [← hkey, ← hkey]
        rfl
      rw [lexOrder, Ordering.then_assoc, ← ih]
      change order (level.keyed items :: ofLevels rest items) l r = _
      by_cases htie : (level.keyed items).order l r = .eq
      · have hlevel : level.order (items.get l) (items.get r) = .eq := by
          rw [Level.order, ← hkeys, htie]
          simp
        rw [order_cons_of_eq _ htie, hlevel, Ordering.eq_then]
      · have hlevel : level.order (items.get l) (items.get r) ≠ .eq := by
          rwa [Level.order, ← hkeys, Ne, Direction.apply_eq_eq_iff]
        rw [order_cons_of_ne _ htie, hkeys]
        change level.order (items.get l) (items.get r) = _
        cases hcases : level.order (items.get l) (items.get r) with
        | lt => rfl
        | eq => exact absurd hcases hlevel
        | gt => rfl

theorem transCmp_order {levels : List (Level α)}
    (h : ∀ level ∈ levels, Std.TransCmp level.compare) (items : Vector α n) :
    Std.TransCmp (ofLevels levels items).order := by
  have hlex := transCmp_lexOrder h
  have hitems := transCmp_comap items.get (lexOrder levels)
  have hplaces := transCmp_comap (fun l : Fin n => l.val) (compare : Nat → Nat → Ordering)
  have heq : (ofLevels levels items).order = compareLex
      (fun l r => lexOrder levels (items.get l) (items.get r)) fun l r => compare l.val r.val := by
    funext l r
    exact order_ofLevels levels items l r
  rw [heq]
  infer_instance

/-- Different places never tie. -/
theorem eq_of_order_eq {levels : List (Level α)} {items : Vector α n} {l r : Fin n}
    (h : (ofLevels levels items).order l r = .eq) : l = r := by
  rw [order_ofLevels, Ordering.then_eq_eq] at h
  exact Fin.ext (Std.LawfulEqOrd.eq_of_compare h.2)

theorem order_eq_lt_iff {levels : List (Level α)} {items : Vector α n} {l r : Fin n} :
    (ofLevels levels items).order l r = .lt ↔
      lexOrder levels (items.get l) (items.get r) = .lt ∨
        lexOrder levels (items.get l) (items.get r) = .eq ∧ l < r := by
  rw [order_ofLevels, Ordering.then_eq_lt, Nat.compare_eq_lt]
  rfl

end Chain

end TextKit.Sorting
