/-!
# Sort directions
-/

namespace TextKit.Sorting

/-- Whether small or great keys come first. -/
inductive Direction where
  | ascending
  | descending
  deriving DecidableEq, Repr

/-- Small keys come first when no direction is asked for. -/
instance : Inhabited Direction := ⟨.ascending⟩

namespace Direction

/-- Turn the order of two keys into the order of their items. -/
def apply : Direction → Ordering → Ordering
  | ascending, o => o
  | descending, o => o.swap

@[simp] theorem apply_ascending (o : Ordering) : ascending.apply o = o := rfl

@[simp] theorem apply_descending (o : Ordering) : descending.apply o = o.swap := rfl

@[simp] theorem apply_eq_eq_iff (d : Direction) (o : Ordering) : d.apply o = .eq ↔ o = .eq := by
  cases d <;> simp

end Direction
end TextKit.Sorting
