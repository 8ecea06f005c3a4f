/-!
# Stable sorting

Lists are sorted by insertion under a comparison `le`, where `le a b` says that `a` may come
before `b`. Each element goes in front of the first element it may precede, so elements that
`le` cannot tell apart keep the order they had: the sort is stable, as the merge sort of the
standard library is, and for the total preorders used here the two give the same list.
-/

namespace CycleSched

/-- Inserts `a` in front of the first element it may precede. -/
def insertBy {α : Type} (le : α → α → Bool) (a : α) : List α → List α
  | [] => [a]
  | b :: l => if le a b then a :: b :: l else b :: insertBy le a l

/-- Sorts a list stably by insertion. -/
def sortBy {α : Type} (le : α → α → Bool) : List α → List α
  | [] => []
  | a :: l => insertBy le a (sortBy le l)

end CycleSched
