/-!
Lists cut at the first occurrence of a pattern.
-/

namespace Courier.Text

variable {α : Type} [BEq α]

/-- Looks for the pattern from here on; `before` holds what was passed over, last first. -/
def cutFrom (pattern before : List α) : List α → Option (List α × List α)
  | [] => if pattern.isEmpty then some (before.reverse, []) else none
  | x :: rest =>
    if pattern.isPrefixOf (x :: rest) then
      some (before.reverse, (x :: rest).drop pattern.length)
    else cutFrom pattern (x :: before) rest

/-- What stands before and after the first occurrence of the pattern. -/
def cut? (pattern xs : List α) : Option (List α × List α) := cutFrom pattern [] xs

/-- What follows the pattern in a list that starts with it. -/
def after? (pattern xs : List α) : Option (List α) :=
  if pattern.isPrefixOf xs then some (xs.drop pattern.length) else none

end Courier.Text
