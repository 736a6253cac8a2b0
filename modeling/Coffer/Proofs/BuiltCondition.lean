import Mathlib.Data.List.TakeDrop
import Coffer.Proofs.PlaceholderNumbers

namespace Coffer.Builder

/-! # Built conditions

A condition that is put together by calls means what the calls ask for, and its placeholders stand
where the values go.
-/

open Language

variable {name : String} {first : Nat}

def isAscii (name : String) : Bool :=
  name.toList.all Text.isAscii

/-- What a value is meant as. -/
def written (value : Value) : Expression :=
  .literal (literal value)

namespace Condition

/-- Whether a condition is put together by calls, and what they mean with the values in their
places. Names are in ASCII, and no list after IN is empty. -/
inductive Means : Condition → Expression → Prop where
  | compare {operator : Operator} {name : String} {value : Value} (ascii : isAscii name = true) :
      Means (compare operator name value) (.binary operator (column name) (written value))
  | isIn {name : String} {values : List Value} (ascii : isAscii name = true)
      (nonempty : values ≠ []) :
      Means (isIn name values) (.isIn (column name) (values.map written))
  | between {name : String} {low high : Value} (ascii : isAscii name = true) :
      Means (between name low high) (.between (column name) (written low) (written high))
  | isNull {name : String} (ascii : isAscii name = true) :
      Means (isNull name) (.isNull (column name))
  | sameColumns {left right : String} (first : isAscii left = true)
      (second : isAscii right = true) :
      Means (sameColumns left right) (.binary .equal (column left) (column right))
  | both {left right : Condition} {meant other : Expression} (first : Means left meant)
      (second : Means right other) : Means (left.both right) (.binary .and meant other)
  | either {left right : Condition} {meant other : Expression} (first : Means left meant)
      (second : Means right other) : Means (left.either right) (.binary .or meant other)
  | negate {condition : Condition} {meant : Expression} (only : Means condition meant) :
      Means condition.negate (.not meant)

end Condition

/-! ## Columns -/

/-- A column is a field with the name, or with what the first point in it sets apart. -/
theorem column_cases (name : String) :
    column name = .field none name ∨
      ∃ relation rest, (∀ c ∈ relation ++ rest, c ∈ name.toList) ∧
        column name = .field (some (String.ofList relation)) (String.ofList rest) := by
  rw [column]
  split
  · rename_i relation point rest spanned
    rw [List.span_eq_takeWhile_dropWhile] at spanned
    obtain ⟨front, back⟩ := Prod.mk.inj spanned
    have whole := List.takeWhile_append_dropWhile (p := fun c => c != '.') (l := name.toList)
    rw [front, back] at whole
    refine .inr ⟨relation, rest, fun c member => ?_, rfl⟩
    rw [← whole]
    rcases List.mem_append.mp member with before | after
    · exact List.mem_append_left _ before
    · exact List.mem_append_right _ (List.mem_cons_of_mem _ after)
  · exact .inl rfl

theorem column_field (name : String) : ∃ relation rest, column name = .field relation rest := by
  rcases column_cases name with form | ⟨relation, rest, -, form⟩
  · exact ⟨_, _, form⟩
  · exact ⟨_, _, form⟩

theorem column_clear (ascii : isAscii name = true) : (column name).Clear := by
  have each := List.all_eq_true.mp ascii
  have part {characters : List Char} (within : ∀ c ∈ characters, c ∈ name.toList) :
      (Token.identifier (String.ofList characters)).isAscii = true := by
    rw [Token.isAscii, String.toList_ofList]
    exact List.all_eq_true.mpr fun c member => each c (within c member)
  rcases column_cases name with form | ⟨relation, rest, within, form⟩
  · rw [form]
    exact ⟨.leaf .field rfl ⟨by simp, .inr ascii⟩, List.forall_mem_singleton.mpr rfl⟩
  · rw [form]
    obtain ⟨before, after⟩ := List.forall_mem_append.mp within
    refine ⟨.leaf .field rfl ⟨?_, .inr (part after)⟩, List.forall_mem_singleton.mpr rfl⟩
    rintro _ ⟨⟩
    exact part before

theorem column_numbers : Numbers first [] (column name) (column name) (column name) := by
  obtain ⟨relation, rest, form⟩ := column_field name
  rw [form]
  exact .plain (fun _ => rfl) rfl

end Coffer.Builder

namespace Coffer.Language.Expression.Clear

/-! ## Clear expressions -/

variable {operator : Operator} {left right operand low high : Expression} {items : List Expression}

theorem parameter {index : Nat} : Clear (.parameter index) :=
  ⟨.parameter, List.forall_mem_singleton.mpr rfl⟩

theorem binary (first : left.Clear) (second : right.Clear)
    (apart : (Expression.binary operator left right).isIntact = true) :
    Clear (.binary operator left right) :=
  ⟨.binary first.found second.found, forall_parts_binary.mpr ⟨apart, first.intact, second.intact⟩⟩

theorem not (only : operand.Clear) : Clear (.not operand) :=
  ⟨.not only.found, forall_parts_not.mpr ⟨rfl, only.intact⟩⟩

theorem isNull (only : operand.Clear) : Clear (.isNull operand) :=
  ⟨.isNull only.found, forall_parts_isNull.mpr ⟨rfl, only.intact⟩⟩

theorem isIn (first : operand.Clear) (nonempty : items ≠ []) (all : ∀ item ∈ items, item.Clear) :
    Clear (.isIn operand items) :=
  ⟨.isIn first.found nonempty fun item member => (all item member).found,
    forall_parts_isIn.mpr ⟨rfl, first.intact, fun item member => (all item member).intact⟩⟩

theorem between (first : operand.Clear) (second : low.Clear) (third : high.Clear) :
    Clear (.between operand low high) :=
  ⟨.between first.found second.found third.found,
    forall_parts_between.mpr ⟨rfl, first.intact, second.intact, third.intact⟩⟩

end Coffer.Language.Expression.Clear

namespace Coffer.Builder.Condition

open Language Expression

variable {condition : Condition} {meant : Expression}

/-! ## Conditions -/

/-- A condition means the same with its placeholders numbered, and reads back so. -/
theorem Means.numbers (means : Means condition meant) (first : Nat) :
    ∃ numbered, Numbers first condition.values condition.expression meant numbered ∧
      numbered.Clear := by
  induction means generalizing first with
  | @compare operator name value ascii =>
      refine ⟨.binary operator (column name) (.parameter first), ?_, ?_⟩
      · exact column_numbers.pair (Expression.binary operator) .placeholder (fun _ _ _ => rfl)
          fun _ _ => placeholders_binary
      · refine (column_clear ascii).binary .parameter ?_
        obtain ⟨relation, rest, form⟩ := column_field name
        rw [form]
        rfl
  | @isIn name values ascii nonempty =>
      refine ⟨.isIn (column name) ((List.range' first values.length).map .parameter), ?_, ?_⟩
      · refine column_numbers.pair Expression.isIn .listed (fun replacement part items => ?_)
          fun _ _ => placeholders_isIn
        change Expression.isIn _ (replacedList replacement items) = _
        rw [replacedList_eq]
        rfl
      · refine (column_clear ascii).isIn (by simpa using nonempty) fun item member => ?_
        obtain ⟨index, -, rfl⟩ := List.mem_map.mp member
        exact .parameter
  | @between name low high ascii =>
      refine ⟨.between (column name) (.parameter first) (.parameter (first + 1)), ?_, ?_⟩
      · have bounds : Numbers first ([low] ++ [high]) (placeholder, placeholder) _ _ :=
          Numbers.placeholder.both .placeholder
        exact column_numbers.pair
          (fun operand bounds => Expression.between operand bounds.1 bounds.2) bounds
          (fun _ _ _ => rfl) fun _ _ => placeholders_between
      · exact (column_clear ascii).between .parameter .parameter
  | @isNull name ascii =>
      refine ⟨.isNull (column name), ?_, (column_clear ascii).isNull⟩
      exact column_numbers.map Expression.isNull (fun _ _ => rfl) fun _ => placeholders_isNull
  | @sameColumns left right leftAscii rightAscii =>
      refine ⟨.binary .equal (column left) (column right), ?_, ?_⟩
      · exact column_numbers.pair (Expression.binary .equal) column_numbers (fun _ _ _ => rfl)
          fun _ _ => placeholders_binary
      · refine (column_clear leftAscii).binary (column_clear rightAscii) ?_
        obtain ⟨relation, rest, form⟩ := column_field left
        rw [form]
        rfl
  | @both left right meant other _ _ leftNumbers rightNumbers =>
      obtain ⟨front, numbers, clear⟩ := leftNumbers first
      obtain ⟨back, others, further⟩ := rightNumbers (first + left.values.length)
      refine ⟨.binary .and front back, ?_, clear.binary further (by cases front <;> rfl)⟩
      exact numbers.pair (Expression.binary .and) others (fun _ _ _ => rfl)
        fun _ _ => placeholders_binary
  | @either left right meant other _ _ leftNumbers rightNumbers =>
      obtain ⟨front, numbers, clear⟩ := leftNumbers first
      obtain ⟨back, others, further⟩ := rightNumbers (first + left.values.length)
      refine ⟨.binary .or front back, ?_, clear.binary further (by cases front <;> rfl)⟩
      exact numbers.pair (Expression.binary .or) others (fun _ _ _ => rfl)
        fun _ _ => placeholders_binary
  | @negate condition meant _ inner =>
      obtain ⟨only, numbers, clear⟩ := inner first
      exact ⟨.not only, numbers.map Expression.not (fun _ _ => rfl) fun _ => placeholders_not,
        clear.not⟩

end Coffer.Builder.Condition
