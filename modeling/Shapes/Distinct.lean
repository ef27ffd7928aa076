/-!
# Distinct members

The members of a list up to a relation: of several related members the first
one stays.
-/

namespace Shapes

/-- The list without members that are related to an earlier one. -/
def distinctBy {α : Type} (related : α -> α -> Bool) : List α -> List α
  | [] => []
  | a :: rest => a :: (distinctBy related rest).filter fun b => !related a b

end Shapes
