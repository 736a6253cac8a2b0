import Mathlib.Data.List.Sort
import Mathlib.Data.String.Basic
import Coffer.Query.Ordering

namespace Coffer

/-! # Stable sorting

Rows are sorted by keys in turn, each in its own direction, with nulls below everything else.
Where a key takes only integers or only words, apart from nulls, rows come out as they do when
each of them is inserted before the first one that it does not follow.
-/

/-- Whether a value is an integer or a null. -/
def Value.isWhole : Value → Bool
  | .null => true
  | .integer _ => true
  | _ => false

/-- Whether a value is a null, or a text that spells no number. -/
def Value.isWord : Value → Bool
  | .null => true
  | .text content => (Value.realOfText? content).isNone
  | _ => false

/-- The order of integers, and that of texts, with nulls below both. -/
def Value.atMost : Value → Value → Bool
  | .null, _ => true
  | .integer first, .integer second => decide (first ≤ second)
  | .text first, .text second => decide (first ≤ second)
  | _, _ => false

/-- Whether a row may stand before another one, by the first of the keys in which they differ. -/
def mayPrecede : List (Operand × Bool) → Tuple → Tuple → Bool
  | [], _, _ => true
  | (key, descending) :: rest, first, second =>
    let low := if descending then key.value second else key.value first
    let high := if descending then key.value first else key.value second
    if low.atMost high then
      if high.atMost low then mayPrecede rest first second else true
    else false

/-- Whether a key takes only values of one sort over rows, so that all of them are in order. -/
def isOrderable (rows : List Tuple) (key : Operand) : Bool :=
  (rows.all fun row => (key.value row).isWhole) || rows.all fun row => (key.value row).isWord

/-- Whether what is shown of a row has the value of a key in the place of a term, which is sorted
by in the same direction. -/
def Carries (row shown : Tuple) (term : Nat × Bool) (key : Operand × Bool) : Prop :=
  term.2 = key.2 ∧ shown.getD term.1 .null = key.1.value row

/-- A comparison by which all things can be sorted. -/
structure Orders {α : Type} (le : α → α → Bool) : Prop where
  total : ∀ first second, (le first second || le second first) = true
  trans : ∀ first second third, le first second = true → le second third = true →
    le first third = true

namespace Orders

variable {α : Type} {le other : α → α → Bool}

theorem flip (orders : Orders le) : Orders fun first second => le second first :=
  ⟨fun first second => orders.total second first,
    fun first second third left right => orders.trans third second first right left⟩

/-- By one comparison, and by another one where the first does not tell things apart. -/
theorem lex (orders : Orders le) (others : Orders other) :
    Orders fun first second =>
      if le first second then if le second first then other first second else true else false := by
  refine ⟨fun first second => ?_, fun first second third left right => ?_⟩
  · have one := orders.total first second
    have two := others.total first second
    cases forward : le first second <;> cases backward : le second first <;> simp_all
  · have forward := orders.trans first second third
    have backward := orders.trans third first second
    have around := orders.trans second third first
    have next := others.trans first second third
    grind

/-- A sort that keeps things in their places where the comparison does not tell them apart. -/
theorem mergeSort_eq_insertionSort (orders : Orders le) (items : List α) :
    items.mergeSort le = items.insertionSort fun first second => le first second = true := by
  induction items with
  | nil => rw [List.mergeSort_nil, List.insertionSort_nil]
  | cons item rest ih =>
      obtain ⟨before, after, sorted, without, behind⟩ :=
        List.mergeSort_cons orders.trans orders.total item rest
      have ordered := List.pairwise_mergeSort orders.trans orders.total (item :: rest)
      rw [sorted] at ordered
      have ahead : ∀ later ∈ after, le item later = true :=
        (List.pairwise_cons.mp (List.pairwise_append.mp ordered).2.1).1
      rw [sorted, List.insertionSort_cons, ← ih, without, List.orderedInsert_eq_take_drop]
      have passes : ∀ earlier ∈ before, decide (¬ le item earlier = true) = true :=
        fun earlier member => by simpa using behind earlier member
      rw [List.takeWhile_append_of_pos passes, List.dropWhile_append_of_pos passes]
      cases after with
      | nil => simp
      | cons later others => simp [ahead later List.mem_cons_self]

end Orders

/-! ## Keys in order -/

theorem decide_le_eq_compare {α : Type} [LinearOrder α] (first second : α) :
    decide (first ≤ second) = (compare first second != .gt) ∧
      decide (second ≤ first) = (compare first second != .lt) := by
  cases order : compare first second with
  | lt => simp [(compare_lt_iff_lt.mp order).le, compare_lt_iff_lt.mp order]
  | eq => simp [compare_eq_iff_eq.mp order]
  | gt => simp [(compare_gt_iff_gt.mp order).le, compare_gt_iff_gt.mp order]

namespace Value

variable {first second third : Value}

/-- Whether two values are of one sort. -/
def alike (first second : Value) : Bool :=
  (first.isWhole && second.isWhole) || (first.isWord && second.isWord)

/-- Values of one sort are sorted by their order. -/
theorem sortOrder_of_alike (same : first.alike second = true) :
    first.atMost second = (first.sortOrder second != .gt) ∧
      second.atMost first = (first.sortOrder second != .lt) := by
  cases first with
  | null => cases second <;> exact ⟨rfl, rfl⟩
  | integer number =>
      cases second with
      | null => exact ⟨rfl, rfl⟩
      | integer other =>
          have order := decide_le_eq_compare number.toInt other.toInt
          simpa only [atMost, sortOrder, compare?, Option.getD_some, Int64.le_iff_toInt_le]
            using order
      | _ => simp [alike, isWhole, isWord] at same
  | real number => cases second <;> simp [alike, isWhole, isWord] at same
  | text content =>
      cases second with
      | null => exact ⟨rfl, rfl⟩
      | text other =>
          have order := decide_le_eq_compare content other
          simp only [alike, isWhole, isWord, Bool.false_and, Bool.false_or, Bool.and_eq_true,
            Option.isNone_iff_eq_none] at same
          simpa only [atMost, sortOrder, compare?, number?, written, same.1, Option.getD_some]
            using order
      | _ => simp [alike, isWhole, isWord] at same

theorem atMost_trans (left : first.atMost second = true) (right : second.atMost third = true) :
    first.atMost third = true := by
  cases first with
  | null => rfl
  | integer =>
      cases second <;> cases third <;> simp only [atMost, decide_eq_true_eq,
        Bool.false_eq_true] at left right ⊢
      exact Int64.le_trans left right
  | real => cases left
  | text =>
      cases second <;> cases third <;> simp only [atMost, decide_eq_true_eq,
        Bool.false_eq_true] at left right ⊢
      exact String.le_trans left right

end Value

section

variable {rows : List Tuple} {keys : List (Operand × Bool)} {terms : List (Nat × Bool)}

theorem alike_of_isOrderable {key : Operand} {first second : Tuple}
    (orderable : isOrderable rows key = true) (firstMember : first ∈ rows)
    (secondMember : second ∈ rows) : (key.value first).alike (key.value second) = true := by
  rw [isOrderable, Bool.or_eq_true, List.all_eq_true, List.all_eq_true] at orderable
  rw [Value.alike, Bool.or_eq_true, Bool.and_eq_true, Bool.and_eq_true]
  exact orderable.imp (fun whole => ⟨whole _ firstMember, whole _ secondMember⟩)
    fun words => ⟨words _ firstMember, words _ secondMember⟩

/-- Over rows of which each key takes values of one sort, the keys together make an order. -/
theorem orders_mayPrecede (orderable : ∀ key ∈ keys, isOrderable rows key.1 = true) :
    Orders fun first second : { row // row ∈ rows } => mayPrecede keys first second := by
  induction keys with
  | nil => exact ⟨fun _ _ => rfl, fun _ _ _ _ _ => rfl⟩
  | cons key rest ih =>
      obtain ⟨key, descending⟩ := key
      obtain ⟨first, others⟩ := List.forall_mem_cons.mp orderable
      have base : Orders fun one two : { row // row ∈ rows } =>
          (key.value one).atMost (key.value two) := by
        refine ⟨fun one two => ?_, fun _ _ _ => Value.atMost_trans⟩
        obtain ⟨forward, backward⟩ :=
          Value.sortOrder_of_alike (alike_of_isOrderable first one.2 two.2)
        rw [forward, backward]
        cases (key.value one).sortOrder (key.value two) <;> rfl
      cases descending with
      | false => exact base.lex (ih others)
      | true => exact base.flip.lex (ih others)

/-- Rows that have the values of the keys in the places of the terms are told apart alike. -/
theorem orderRows_eq_mayPrecede {first second left right : Tuple}
    (firstShown : List.Forall₂ (Carries first left) terms keys)
    (secondShown : List.Forall₂ (Carries second right) terms keys)
    (alike : ∀ key ∈ keys, (key.1.value first).alike (key.1.value second) = true) :
    (orderRows terms left right != .gt) = mayPrecede keys first second := by
  induction firstShown with
  | nil => rfl
  | @cons term key terms keys shown _ ih =>
      obtain ⟨position, descending⟩ := term
      obtain ⟨operand, direction⟩ := key
      obtain ⟨rfl, leftValue⟩ := shown
      obtain ⟨⟨-, rightValue⟩, others⟩ := List.forall₂_cons.mp secondShown
      obtain ⟨own, rest⟩ := List.forall_mem_cons.mp alike
      obtain ⟨forward, backward⟩ := Value.sortOrder_of_alike own
      rw [orderRows, leftValue, rightValue, mayPrecede, ← ih others rest]
      cases descending with
      | false =>
          simp only [Bool.false_eq_true, if_false, forward, backward]
          cases (operand.value first).sortOrder (operand.value second) <;> rfl
      | true =>
          simp only [if_true, forward, backward]
          cases (operand.value first).sortOrder (operand.value second) <;> rfl

/-- Sorting what is made of rows comes to the same as making it of the sorted rows. -/
theorem sortRows_map {project : Tuple → Tuple}
    (orderable : ∀ key ∈ keys, isOrderable rows key.1 = true)
    (shown : ∀ row ∈ rows, List.Forall₂ (Carries row (project row)) terms keys) :
    sortRows terms (rows.map project) =
      (rows.insertionSort fun first second => mayPrecede keys first second = true).map project := by
  let own (row : { row // row ∈ rows }) : Tuple := project row.1
  let le (first second : { row // row ∈ rows }) : Bool := mayPrecede keys first.1 second.1
  have agree : ∀ first ∈ rows.attach, ∀ second ∈ rows.attach,
      le first second = (orderRows terms (own first) (own second) != .gt) :=
    fun first _ second _ => (orderRows_eq_mayPrecede (shown _ first.2) (shown _ second.2)
      fun key listed => alike_of_isOrderable (orderable key listed) first.2 second.2).symm
  have sorted : (rows.attach.insertionSort fun first second => le first second = true).map
      Subtype.val = rows.insertionSort fun first second => mayPrecede keys first second = true := by
    rw [List.map_insertionSort _ (fun first second => mayPrecede keys first second = true) _ _
      (fun _ _ _ _ => Iff.rfl), List.attach_map_subtype_val]
  calc sortRows terms (rows.map project)
      = (rows.attach.map own).mergeSort
          fun first second => orderRows terms first second != .gt := by
        rw [List.attach_map_val, sortRows]
    _ = (rows.attach.mergeSort le).map own := (List.map_mergeSort agree).symm
    _ = ((rows.attach.insertionSort fun first second => le first second = true).map
          Subtype.val).map project := by
        rw [(orders_mayPrecede orderable).mergeSort_eq_insertionSort, List.map_map]
        rfl
    _ = _ := by rw [sorted]

end

end Coffer
