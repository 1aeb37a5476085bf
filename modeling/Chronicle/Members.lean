import Chronicle.Uuid

/-!
# Member lists

A relation lists its members in a sequence, in which a member may be repeated.
A stored list keeps the first occurrence of each (`distinct`). The difference of
two lists says who came and who left, in the sequence of first occurrences.
-/

namespace Chronicle

/-- Each member once, where it occurs first. -/
def distinct {α : Type} [DecidableEq α] : List α → List α
  | [] => []
  | first :: rest => first :: (distinct rest).filter fun other => other ≠ first

/-- Whether two lists have the same members, in whatever sequence. -/
def sameMembers (first second : List EntityId) : Bool :=
  first.all (fun id => id ∈ second) && second.all (fun id => id ∈ first)

/-- How a member list changed. -/
structure MemberDiff where
  relation : String
  added : List EntityId
  removed : List EntityId
  reordered : Bool
  deriving DecidableEq

namespace MemberDiff

/-- The difference of two lists; the sequence counts only if `ordered`. -/
def between (relation : String) (ordered : Bool) (before after : List EntityId) : MemberDiff where
  relation := relation
  added := distinct (after.filter fun id => id ∉ before)
  removed := distinct (before.filter fun id => id ∉ after)
  reordered := ordered && sameMembers before after && decide (before ≠ after)

/-- Whether nothing changed. -/
def isEmpty (diff : MemberDiff) : Bool :=
  diff.added.isEmpty && diff.removed.isEmpty && !diff.reordered

end MemberDiff

end Chronicle
