/-!
# Putting lists in order

A sort by insertion.  Items that may stand in either order keep the one that they have.
-/
namespace ControlPlane

variable {α : Type}

/-- Puts an item before the first one that it may stand before. -/
def insertInto (le : α → α → Bool) (x : α) : List α → List α
  | [] => [x]
  | y :: rest => if le x y then x :: y :: rest else y :: insertInto le x rest

def sortWith (le : α → α → Bool) : List α → List α
  | [] => []
  | x :: rest => insertInto le x (sortWith le rest)

end ControlPlane
