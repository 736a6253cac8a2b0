import Coffer.Predicate.Basic

namespace Coffer

/-! # Sorting rows -/

/-- The order of two rows by the first term in which they differ. -/
def orderRows (terms : List (Nat × Bool)) (first second : Tuple) : Ordering :=
  match terms with
  | [] => .eq
  | (position, descending) :: rest =>
    let order := (first.getD position .null).sortOrder (second.getD position .null)
    let directed := if descending then order.swap else order
    directed.then (orderRows rest first second)

/-- The rows in the order of the terms. Rows that the terms do not tell apart keep their
places. -/
def sortRows (terms : List (Nat × Bool)) (rows : List Tuple) : List Tuple :=
  rows.mergeSort fun first second => orderRows terms first second != .gt

end Coffer
