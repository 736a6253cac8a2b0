import Mathlib.Data.List.Basic
import Mathlib.Data.List.ProdSigma
import Coffer.Query.Execution

namespace Coffer

/-! # Joined rows

A join gives the pairs that pass, in the order of the side that is gone through first. A side that
is preserved keeps its rows: where a row is in no pair that passes, it stands in the place of its
pairs, next to nulls. Preserving the right side is the same as preserving the left one after an
exchange of the sides.
-/

/-- The pairs of rows that pass, in the order of the left rows and then of the right ones. -/
def passingPairs (predicate : Option Predicate) (left right : List Tuple) : List Tuple :=
  ((left.product right).map fun pair => pair.1 ++ pair.2).filter (passes predicate)

def hasPartner (predicate : Option Predicate) (right : List Tuple) (l : Tuple) : Bool :=
  right.any fun r => passes predicate (l ++ r)

/-! ## Exchanged columns -/

/-- Where a position is after the first columns, of a given number, are moved behind the next. -/
def exchangedPosition (leftWidth rightWidth position : Nat) : Nat :=
  if position < leftWidth then rightWidth + position
  else if position < leftWidth + rightWidth then position - leftWidth
  else position

/-- A tuple with its first columns moved behind the others. -/
def exchangedTuple (width : Nat) (tuple : Tuple) : Tuple :=
  tuple.drop width ++ tuple.take width

def Operand.moved (move : Nat → Nat) : Operand → Operand
  | .column position => .column (move position)
  | .constant value => .constant value

namespace Predicate

/-- The same condition on columns that are moved. -/
def moved (move : Nat → Nat) : Predicate → Predicate
  | .constant truth => .constant truth
  | .truthy operand => .truthy (operand.moved move)
  | .compare comparison left right => .compare comparison (left.moved move) (right.moved move)
  | .and left right => .and (left.moved move) (right.moved move)
  | .or left right => .or (left.moved move) (right.moved move)
  | .not predicate => .not (predicate.moved move)
  | .like operand pattern => .like (operand.moved move) pattern
  | .isIn operand items => .isIn (operand.moved move) (items.map (Operand.moved move))
  | .between operand low high =>
    .between (operand.moved move) (low.moved move) (high.moved move)
  | .isNull operand => .isNull (operand.moved move)

/-- The same condition with the sides of a join exchanged. -/
def exchanged (leftWidth rightWidth : Nat) (predicate : Predicate) : Predicate :=
  predicate.moved (exchangedPosition leftWidth rightWidth)

variable {move : Nat → Nat} {tuple other : Tuple}

theorem evaluate_moved (predicate : Predicate)
    (same : ∀ position, other.getD (move position) .null = tuple.getD position .null) :
    (predicate.moved move).evaluate other = predicate.evaluate tuple := by
  have value (operand : Operand) : (operand.moved move).value other = operand.value tuple := by
    cases operand with
    | column position => exact same position
    | constant value => rfl
  induction predicate with
  | constant truth => rfl
  | truthy operand => simp only [moved, evaluate, value]
  | compare comparison left right => simp only [moved, evaluate, value]
  | and left right leftIH rightIH => simp only [moved, evaluate, leftIH, rightIH]
  | or left right leftIH rightIH => simp only [moved, evaluate, leftIH, rightIH]
  | not predicate ih => simp only [moved, evaluate, ih]
  | like operand pattern => simp only [moved, evaluate, value]
  | isIn operand items =>
      have each : (items.map (Operand.moved move)).map (Operand.value other) =
          items.map (Operand.value tuple) := by
        rw [List.map_map]
        exact List.map_congr_left fun item _ => value item
      simp only [moved, evaluate, value, each]
  | between operand low high => simp only [moved, evaluate, value]
  | isNull operand => simp only [moved, evaluate, value]

end Predicate

section Joins

variable {predicate : Option Predicate} {left right : List Tuple} {l r row : Tuple}
  {leftWidth rightWidth : Nat}

theorem getD_exchanged (leftWide : l.length = leftWidth) (rightWide : r.length = rightWidth)
    (position : Nat) :
    (r ++ l).getD (exchangedPosition leftWidth rightWidth position) .null =
      (l ++ r).getD position .null := by
  subst leftWide rightWide
  simp only [List.getD_eq_getElem?_getD, exchangedPosition]
  split
  · rename_i inLeft
    rw [List.getElem?_append_right (by omega), List.getElem?_append_left inLeft,
      Nat.add_sub_cancel_left]
  · split
    · rename_i beyondLeft inRight
      rw [List.getElem?_append_left (by omega), List.getElem?_append_right (by omega)]
    · rw [List.getElem?_eq_none (by simp; omega), List.getElem?_eq_none (by simp; omega)]

theorem passes_exchanged (leftWide : l.length = leftWidth) (rightWide : r.length = rightWidth) :
    passes (predicate.map (Predicate.exchanged leftWidth rightWidth)) (r ++ l) =
      passes predicate (l ++ r) := by
  cases predicate with
  | none => rfl
  | some condition =>
      simp only [passes, Option.map_some, Option.all_some, Predicate.test, Predicate.exchanged,
        condition.evaluate_moved (getD_exchanged leftWide rightWide)]

theorem exchangedTuple_append (rightWide : r.length = rightWidth) :
    exchangedTuple rightWidth (r ++ l) = l ++ r := by
  rw [exchangedTuple, ← rightWide, List.drop_left, List.take_left]

/-! ## The two loops -/

theorem innerJoin_eq : innerJoin predicate left right = passingPairs predicate left right := by
  rw [innerJoin, passingPairs, List.product, List.map_flatMap, List.filter_flatMap]
  simp only [List.map_map, Function.comp_def]

theorem passingPairs_single :
    passingPairs predicate [l] right = (right.map fun r => l ++ r).filter (passes predicate) := by
  rw [← innerJoin_eq, innerJoin, List.flatMap_singleton]

theorem passingPairs_single_eq_nil :
    passingPairs predicate [l] right = [] ↔ hasPartner predicate right l = false := by
  simp [passingPairs_single, hasPartner, List.filter_eq_nil_iff]

theorem leftJoin_eq :
    leftJoin predicate rightWidth left right = left.flatMap fun l =>
      if hasPartner predicate right l then passingPairs predicate [l] right
      else [l ++ blank rightWidth] := by
  rw [leftJoin]
  congr
  funext l
  rw [← passingPairs_single]
  split
  · rename_i none
    rw [passingPairs_single_eq_nil.mp none, if_neg Bool.false_ne_true]
  · rename_i found
    rw [if_pos (by simpa [passingPairs_single_eq_nil] using found)]

/-- Each right row gives the same rows whichever side the join goes through first. -/
theorem rightJoin_eq (leftWide : ∀ l ∈ left, l.length = leftWidth)
    (rightWide : ∀ r ∈ right, r.length = rightWidth) :
    rightJoin predicate leftWidth left right =
      (leftJoin (predicate.map (Predicate.exchanged leftWidth rightWidth)) leftWidth
        right left).map (exchangedTuple rightWidth) := by
  rw [rightJoin, leftJoin, List.map_flatMap]
  refine List.flatMap_congr fun r member => ?_
  have wide := rightWide r member
  have pairs : (left.map fun l => l ++ r).filter (passes predicate) =
      ((left.map fun l => r ++ l).filter
        (passes (predicate.map (Predicate.exchanged leftWidth rightWidth)))).map
          (exchangedTuple rightWidth) := by
    rw [List.filter_map, List.filter_map, List.map_map]
    have tests : left.filter (passes predicate ∘ fun l => l ++ r) = left.filter
        (passes (predicate.map (Predicate.exchanged leftWidth rightWidth)) ∘ fun l => r ++ l) :=
      List.filter_congr fun l among => (passes_exchanged (leftWide l among) wide).symm
    rw [tests]
    exact List.map_congr_left fun l _ => (exchangedTuple_append wide).symm
  rw [pairs]
  cases (left.map fun l => r ++ l).filter
      (passes (predicate.map (Predicate.exchanged leftWidth rightWidth))) with
  | nil => simp [exchangedTuple_append wide]
  | cons first rest => rfl

/-! ## Widths and preserved rows -/

theorem mem_passingPairs :
    row ∈ passingPairs predicate left right ↔
      ∃ l ∈ left, ∃ r ∈ right, l ++ r = row ∧ passes predicate row = true := by
  simp only [← innerJoin_eq, innerJoin, List.mem_flatMap, List.mem_filter, List.mem_map]
  constructor
  · intro ⟨l, among, ⟨r, other, same⟩, passed⟩
    exact ⟨l, among, r, other, same, passed⟩
  · intro ⟨l, among, r, other, same, passed⟩
    exact ⟨l, among, ⟨r, other, same⟩, passed⟩

theorem length_of_mem_passingPairs (leftWide : ∀ l ∈ left, l.length = leftWidth)
    (rightWide : ∀ r ∈ right, r.length = rightWidth)
    (member : row ∈ passingPairs predicate left right) : row.length = leftWidth + rightWidth := by
  obtain ⟨l, among, r, other, rfl, -⟩ := mem_passingPairs.mp member
  rw [List.length_append, leftWide l among, rightWide r other]

theorem length_of_mem_leftJoin (leftWide : ∀ l ∈ left, l.length = leftWidth)
    (rightWide : ∀ r ∈ right, r.length = rightWidth)
    (member : row ∈ leftJoin predicate rightWidth left right) :
    row.length = leftWidth + rightWidth := by
  rw [leftJoin_eq, List.mem_flatMap] at member
  obtain ⟨l, among, member⟩ := member
  have wide := leftWide l among
  split at member
  · exact length_of_mem_passingPairs (by simpa using wide) rightWide member
  · rw [List.mem_singleton.mp member, List.length_append, blank, List.length_replicate, wide]

theorem preserved_leftJoin (member : l ∈ left) :
    ∃ row ∈ leftJoin predicate rightWidth left right, row.take l.length = l := by
  rw [leftJoin_eq]
  by_cases partner : hasPartner predicate right l = true
  · obtain ⟨r, among, passed⟩ := List.any_eq_true.mp partner
    refine ⟨l ++ r, List.mem_flatMap.mpr ⟨l, member, ?_⟩, List.take_left⟩
    rw [if_pos partner]
    exact mem_passingPairs.mpr ⟨l, List.mem_singleton.mpr rfl, r, among, rfl, passed⟩
  · refine ⟨l ++ blank rightWidth, List.mem_flatMap.mpr ⟨l, member, ?_⟩, List.take_left⟩
    rw [if_neg partner]
    exact List.mem_singleton.mpr rfl

theorem length_of_mem_rightJoin (leftWide : ∀ l ∈ left, l.length = leftWidth)
    (rightWide : ∀ r ∈ right, r.length = rightWidth)
    (member : row ∈ rightJoin predicate leftWidth left right) :
    row.length = leftWidth + rightWidth := by
  rw [rightJoin_eq leftWide rightWide] at member
  obtain ⟨other, among, rfl⟩ := List.mem_map.mp member
  have wide := length_of_mem_leftJoin rightWide leftWide among
  rw [exchangedTuple, List.length_append, List.length_drop, List.length_take, wide]
  omega

theorem preserved_rightJoin (leftWide : ∀ l ∈ left, l.length = leftWidth)
    (rightWide : ∀ r ∈ right, r.length = rightWidth) (member : r ∈ right) :
    ∃ row ∈ rightJoin predicate leftWidth left right, row.drop leftWidth = r := by
  have wide := rightWide r member
  rw [rightJoin_eq leftWide rightWide]
  obtain ⟨row, among, kept⟩ := preserved_leftJoin member
  refine ⟨exchangedTuple rightWidth row, List.mem_map_of_mem among, ?_⟩
  have length := length_of_mem_leftJoin rightWide leftWide among
  rw [exchangedTuple, List.drop_left' (by rw [List.length_drop, length]; omega), ← wide, kept]

/-- Inner and cross joins give the pairs that pass, left joins the same with each left row without
a partner in the place of its pairs, and right joins what left joins give when the sides are
exchanged, both in the sources and in the predicate. All rows have the columns of both sides, and
a side that is preserved has all of its rows among them. -/
theorem RowSet.join_rows (predicate : Option Predicate) {left right : RowSet}
    (leftWide : ∀ l ∈ left.rows, l.length = left.columns.length)
    (rightWide : ∀ r ∈ right.rows, r.length = right.columns.length) :
    let joined (kind : Language.JoinKind) := (RowSet.join kind predicate left right).rows
    let exchanged := Predicate.exchanged left.columns.length right.columns.length
    joined .inner = passingPairs predicate left.rows right.rows ∧
    joined .cross = passingPairs predicate left.rows right.rows ∧
    joined .left = left.rows.flatMap (fun l =>
      if hasPartner predicate right.rows l then passingPairs predicate [l] right.rows
      else [l ++ blank right.columns.length]) ∧
    joined .right = (RowSet.join .left (predicate.map exchanged) right left).rows.map
      (exchangedTuple right.columns.length) ∧
    (∀ (condition : Predicate) (l r : Tuple), l.length = left.columns.length →
      r.length = right.columns.length →
      (exchanged condition).evaluate (r ++ l) = condition.evaluate (l ++ r)) ∧
    (∀ kind, ∀ row ∈ joined kind, row.length = left.columns.length + right.columns.length) ∧
    (∀ l ∈ left.rows, ∃ row ∈ joined .left, row.take left.columns.length = l) ∧
    ∀ r ∈ right.rows, ∃ row ∈ joined .right, row.drop left.columns.length = r := by
  intro joined exchanged
  refine ⟨innerJoin_eq, innerJoin_eq, leftJoin_eq, rightJoin_eq leftWide rightWide, ?_, ?_, ?_, ?_⟩
  · intro condition l r wide other
    exact condition.evaluate_moved (getD_exchanged wide other)
  · intro kind row member
    cases kind with
    | inner =>
        rw [show joined .inner = _ from innerJoin_eq] at member
        exact length_of_mem_passingPairs leftWide rightWide member
    | cross =>
        rw [show joined .cross = _ from innerJoin_eq] at member
        exact length_of_mem_passingPairs leftWide rightWide member
    | left => exact length_of_mem_leftJoin leftWide rightWide member
    | right => exact length_of_mem_rightJoin leftWide rightWide member
  · intro l member
    rw [← leftWide l member]
    exact preserved_leftJoin member
  · intro r member
    exact preserved_rightJoin leftWide rightWide member

/-- A null is equal to nothing, so the row with one has no partner on either side. -/
theorem RowSet.join_rows_with_nulls :
    let left : RowSet := ⟨["a"], [[.integer 1], [.null], [.integer 2]]⟩
    let right : RowSet := ⟨["b", "c"], [[.integer 2, .text "x"], [.null, .text "y"],
      [.integer 2, .text "z"]]⟩
    let equal : Predicate := .compare .equal (.column 0) (.column 1)
    (∀ l ∈ left.rows, l.length = left.columns.length) ∧
    (∀ r ∈ right.rows, r.length = right.columns.length) ∧
    (RowSet.join .left (some equal) left right).rows =
      [[.integer 1, .null, .null], [.null, .null, .null], [.integer 2, .integer 2, .text "x"],
        [.integer 2, .integer 2, .text "z"]] ∧
    (RowSet.join .right (some equal) left right).rows =
      [[.integer 2, .integer 2, .text "x"], [.null, .null, .text "y"],
        [.integer 2, .integer 2, .text "z"]] := by
  intro left right equal
  have leftWide : ∀ l ∈ left.rows, l.length = left.columns.length := by decide
  have rightWide : ∀ r ∈ right.rows, r.length = right.columns.length := by decide
  obtain ⟨-, -, leftRows, rightRows, -⟩ := RowSet.join_rows (some equal) leftWide rightWide
  refine ⟨leftWide, rightWide, leftRows.trans ?_, rightRows.trans ?_⟩
  · decide
  · decide

end Joins

end Coffer
