/-!
# Sorting

Insertion into a sorted list, repeated. Items that are equal in the order
keep their places, which is seen wherever an order ranks items by a part
of them.
-/

namespace SolDeployer

/-- Put an item before the first one that it may stand before. -/
def insertBy {α : Type} (le : α → α → Bool) (item : α) : List α → List α
  | [] => [item]
  | other :: rest =>
    if le item other then item :: other :: rest else other :: insertBy le item rest

/-- The items in order, equal ones in the order in which they were given. -/
def sortBy {α : Type} (le : α → α → Bool) : List α → List α
  | [] => []
  | item :: rest => insertBy le item (sortBy le rest)

end SolDeployer
