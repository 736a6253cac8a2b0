import Coffer.Predicate.Compilation
import Coffer.Proofs.Result

namespace Coffer

/-! # Expanded conditions

A test against a list has the truth of a chain of equalities, and a test against a range that of
two comparisons; where they are denied, the comparisons are turned around and the chain is the
other one. Truth means all three values here, and where one of two conditions cannot be compiled,
the other one cannot be either, for the same reason.
-/

open Coffer.Language (Expression Operator)

/-- The comparison that holds where the given one does not. -/
def Comparison.opposite : Comparison → Comparison
  | .equal => .notEqual
  | .notEqual => .equal
  | .greater => .lessOrEqual
  | .greaterOrEqual => .less
  | .less => .greaterOrEqual
  | .lessOrEqual => .greater

/-- Comparisons of an operand with one item after another, linked from left to right. -/
def Language.Expression.chain (link test : Operator) (operand first : Expression)
    (rest : List Expression) : Expression :=
  rest.foldl (fun chain item => .binary link chain (.binary test operand item))
    (.binary test operand first)

/-- What can be told of a condition once it is compiled: its truth on each tuple, or why it has
none. -/
def Predicate.meaning (operand : Expression → Except Error Operand) (condition : Expression) :
    Except Error (Tuple → Truth) :=
  (reading operand condition).map fun predicate tuple => predicate.evaluate tuple

/-! ## Truth in three values -/

namespace Truth

variable {first second third : Truth}

theorem or_assoc : (first.or second).or third = first.or (second.or third) := by
  rcases first with _ | _ | _ <;> rcases second with _ | _ | _ <;> rcases third with _ | _ | _ <;>
    rfl

theorem or_false : first.or (some false) = first := by
  rcases first with _ | _ | _ <;> rfl

theorem not_and : (first.and second).not = first.not.or second.not := by
  rcases first with _ | _ | _ <;> rcases second with _ | _ | _ <;> rfl

theorem not_or : (first.or second).not = first.not.and second.not := by
  rcases first with _ | _ | _ <;> rcases second with _ | _ | _ <;> rfl

theorem not_not : first.not.not = first := by
  rcases first with _ | _ | _ <;> rfl

end Truth

namespace Value

variable {value other first : Value} {items : List Value}

theorem not_compares (comparison : Comparison) :
    (value.compares comparison other).not = value.compares comparison.opposite other := by
  rw [compares, compares]
  cases value.compare? other with
  | none => rfl
  | some order => cases comparison <;> cases order <;> rfl

theorem isAmong_cons (known : value.isNull = false) :
    value.isAmong (first :: items) = (value.compares .equal first).or (value.isAmong items) := by
  simp only [isAmong, known, Bool.false_eq_true, if_false, List.map_cons, List.contains_cons,
    compares]
  generalize (items.map value.compare?).contains (some .eq) = equal
  generalize (items.map value.compare?).contains none = unknown
  cases value.compare? first with
  | none => cases equal <;> cases unknown <;> rfl
  | some order => cases order <;> cases equal <;> cases unknown <;> rfl

theorem foldl_equal (known : value.isNull = false) (truth : Truth) :
    items.foldl (fun truth item => truth.or (value.compares .equal item)) truth =
      truth.or (value.isAmong items) := by
  induction items generalizing truth with
  | nil => simp [isAmong, known, Truth.or_false]
  | cons item rest ih => rw [List.foldl_cons, ih, isAmong_cons known, Truth.or_assoc]

/-- Being in a list is being equal to its first item, or to the second, and so on. -/
theorem isAmong_eq_foldl :
    value.isAmong (first :: items) = items.foldl
      (fun truth item => truth.or (value.compares .equal item)) (value.compares .equal first) := by
  cases isNull : value.isNull with
  | false => rw [foldl_equal isNull, isAmong_cons isNull]
  | true =>
      have unknown (item : Value) : value.compares .equal item = none := by
        cases value with
        | null => rfl
        | _ => cases isNull
      simp only [isAmong, isNull, if_true, unknown]
      induction items with
      | nil => rfl
      | cons item rest ih => rwa [List.foldl_cons]

/-- Not being in a list is being other than each of its items. -/
theorem not_isAmong_eq_foldl :
    (value.isAmong (first :: items)).not = items.foldl
      (fun truth item => truth.and (value.compares .notEqual item))
      (value.compares .notEqual first) := by
  rw [isAmong_eq_foldl, ← show _ = value.compares .notEqual first from not_compares .equal]
  generalize value.compares .equal first = truth
  induction items generalizing truth with
  | nil => rfl
  | cons item rest ih => rw [List.foldl_cons, ih, List.foldl_cons, Truth.not_or, not_compares]; rfl

end Value

/-! ## Compiled chains -/

namespace Predicate

variable {operand : Expression → Except Error Operand} {link test : Operator}
  {combine : Predicate → Predicate → Predicate} {comparison : Comparison}
  {matched first : Expression} {rest : List Expression} {tuple : Tuple}

/-- A chain is compiled from its start on, item by item. -/
theorem reading_foldl {found : Operand} (read : operand matched = .ok found)
    (linked : ∀ left right, reading operand (.binary link left right) = do
      let left ← reading operand left
      let right ← reading operand right
      return combine left right)
    (tested : ∀ item, reading operand (.binary test matched item) =
      ofComparison operand comparison matched item)
    (start : Expression) :
    reading operand (rest.foldl
        (fun chain item => .binary link chain (.binary test matched item)) start) = (do
      let start ← reading operand start
      let items ← rest.mapM operand
      return items.foldl
        (fun predicate item => combine predicate (.compare comparison found item)) start) := by
  induction rest generalizing start with
  | nil =>
      rw [List.foldl_nil]
      cases reading operand start <;> rfl
  | cons item rest ih =>
      rw [List.foldl_cons, ih, linked, tested, ofComparison, read, List.mapM_cons]
      cases reading operand start with
      | error reason => rfl
      | ok start =>
          cases operand item with
          | error reason => rfl
          | ok item =>
              cases rest.mapM operand <;> rfl

theorem reading_foldl_error {reason : Error} {start : Expression}
    (failed : reading operand start = .error reason)
    (linked : ∀ left right, reading operand (.binary link left right) = do
      let left ← reading operand left
      let right ← reading operand right
      return combine left right) :
    reading operand (rest.foldl
        (fun chain item => .binary link chain (.binary test matched item)) start) =
      .error reason := by
  induction rest generalizing start with
  | nil => exact failed
  | cons item rest ih =>
      apply ih
      rw [linked, failed]
      rfl

/-- The operand is compiled once for each item, and is the same every time. -/
theorem reading_chain
    (linked : ∀ left right, reading operand (.binary link left right) = do
      let left ← reading operand left
      let right ← reading operand right
      return combine left right)
    (tested : ∀ item, reading operand (.binary test matched item) =
      ofComparison operand comparison matched item) :
    reading operand (.chain link test matched first rest) = (do
      let found ← operand matched
      let first ← operand first
      let items ← rest.mapM operand
      return items.foldl (fun predicate item => combine predicate (.compare comparison found item))
        (.compare comparison found first)) := by
  rw [Expression.chain]
  cases read : operand matched with
  | error reason =>
      apply reading_foldl_error _ linked
      rw [tested, ofComparison, read]
      rfl
  | ok found =>
      rw [reading_foldl read linked tested, tested, ofComparison, read]
      cases operand first <;> rfl

theorem evaluate_foldl_or {found : Operand} {items : List Operand} {start : Predicate} :
    (items.foldl (fun predicate item => .or predicate (.compare comparison found item))
        start).evaluate tuple =
      (items.map (Operand.value tuple)).foldl
        (fun truth item => truth.or ((found.value tuple).compares comparison item))
        (start.evaluate tuple) := by
  induction items generalizing start with
  | nil => rfl
  | cons item rest ih => exact ih

theorem evaluate_foldl_and {found : Operand} {items : List Operand} {start : Predicate} :
    (items.foldl (fun predicate item => .and predicate (.compare comparison found item))
        start).evaluate tuple =
      (items.map (Operand.value tuple)).foldl
        (fun truth item => truth.and ((found.value tuple).compares comparison item))
        (start.evaluate tuple) := by
  induction items generalizing start with
  | nil => rfl
  | cons item rest ih => exact ih

theorem meaning_isIn :
    meaning operand (.isIn matched (first :: rest)) =
      meaning operand (.chain .or .equal matched first rest) := by
  rw [meaning, meaning, reading_chain (fun _ _ => by rw [reading]) (fun _ => by rw [reading]),
    reading, List.mapM_cons]
  cases operand matched with
  | error reason => rfl
  | ok found =>
      cases operand first with
      | error reason => rfl
      | ok first =>
          cases rest.mapM operand with
          | error reason => rfl
          | ok items =>
              refine congrArg Except.ok (funext fun tuple => ?_)
              simp only [evaluate, List.map_cons, Value.isAmong_eq_foldl, evaluate_foldl_or]

theorem meaning_not_isIn :
    meaning operand (.not (.isIn matched (first :: rest))) =
      meaning operand (.chain .and .notEqual matched first rest) := by
  rw [meaning, meaning, reading_chain (fun _ _ => by rw [reading]) (fun _ => by rw [reading]),
    reading, reading, List.mapM_cons]
  cases operand matched with
  | error reason => rfl
  | ok found =>
      cases operand first with
      | error reason => rfl
      | ok first =>
          cases rest.mapM operand with
          | error reason => rfl
          | ok items =>
              refine congrArg Except.ok (funext fun tuple => ?_)
              simp only [evaluate, List.map_cons, Value.not_isAmong_eq_foldl, evaluate_foldl_and]

variable {low high left right condition : Expression}

theorem meaning_between :
    meaning operand (.between matched low high) =
      meaning operand (.binary .and (.binary .greaterOrEqual matched low)
        (.binary .lessOrEqual matched high)) := by
  simp only [meaning, reading, ofComparison]
  cases operand matched <;> cases operand low <;> cases operand high <;> rfl

theorem meaning_not_between :
    meaning operand (.not (.between matched low high)) =
      meaning operand (.binary .or (.binary .less matched low)
        (.binary .greater matched high)) := by
  simp only [meaning, reading, ofComparison]
  cases operand matched with
  | error reason => rfl
  | ok found =>
      cases operand low with
      | error reason => rfl
      | ok low =>
          cases operand high with
          | error reason => rfl
          | ok high =>
              refine congrArg Except.ok (funext fun tuple => ?_)
              simp only [evaluate, Truth.not_and, Value.not_compares, Comparison.opposite]

theorem meaning_not_and :
    meaning operand (.not (.binary .and left right)) =
      meaning operand (.binary .or (.not left) (.not right)) := by
  simp only [meaning, reading]
  cases reading operand left with
  | error reason => rfl
  | ok left =>
      cases reading operand right with
      | error reason => rfl
      | ok right => exact congrArg Except.ok (funext fun tuple => Truth.not_and)

theorem meaning_not_not : meaning operand (.not (.not condition)) = meaning operand condition := by
  simp only [meaning, reading]
  cases reading operand condition with
  | error reason => rfl
  | ok condition => exact congrArg Except.ok (funext fun tuple => Truth.not_not)

end Predicate

/-- A test against a list or a range that follows NOT is read as its denial. -/
theorem Language.test_not {word : Keyword} (known : word ∈ [Keyword.«in», .between]) {fuel : Nat}
    {operand : Expression} {tokens : List Token} {fault : Option LexicalFault} {count : Nat} :
    test (fuel + 1) operand (.keyword .not) ⟨.keyword word :: tokens, fault, count⟩ =
      (test (fuel + 1) operand (.keyword word) ⟨tokens, fault, count⟩).map
        fun read => (.not read.1, read.2) := by
  simp only [List.mem_cons, List.not_mem_nil, or_false] at known
  rcases known with rfl | rfl <;> simp only [test]
  · change (membership fuel operand ⟨tokens, fault, count⟩ >>= _) = _
    cases membership fuel operand ⟨tokens, fault, count⟩ <;> rfl
  · change (range fuel operand ⟨tokens, fault, count⟩ >>= _) = _
    cases range fuel operand ⟨tokens, fault, count⟩ <;> rfl

/-- Whatever operands, parameters and resolver, tests against lists and ranges, their denials, and
denials of conditions have the meaning of their expansions: the same truth on every tuple, or the
same reason why they are not compiled. Denied tests are read as denials. -/
theorem Predicate.expanded_conditions (parameters : List Value) (resolve : Resolver) :
    let meaning (condition : Expression) : Except Error (Tuple → Truth) :=
      (Predicate.ofExpression parameters resolve condition).map fun predicate tuple =>
        predicate.evaluate tuple
    (∀ operand first rest,
      meaning (.isIn operand (first :: rest)) = meaning (.chain .or .equal operand first rest)) ∧
    (∀ operand first rest, meaning (.not (.isIn operand (first :: rest))) =
      meaning (.chain .and .notEqual operand first rest)) ∧
    (∀ operand low high, meaning (.between operand low high) =
      meaning (.binary .and (.binary .greaterOrEqual operand low)
        (.binary .lessOrEqual operand high))) ∧
    (∀ operand low high, meaning (.not (.between operand low high)) =
      meaning (.binary .or (.binary .less operand low) (.binary .greater operand high))) ∧
    (∀ left right, meaning (.not (.binary .and left right)) =
      meaning (.binary .or (.not left) (.not right))) ∧
    (∀ condition, meaning (.not (.not condition)) = meaning condition) ∧
    ∀ word ∈ [Language.Keyword.«in», .between], ∀ fuel operand tokens fault count,
      Language.test (fuel + 1) operand (.keyword .not) ⟨.keyword word :: tokens, fault, count⟩ =
        (Language.test (fuel + 1) operand (.keyword word) ⟨tokens, fault, count⟩).map
          fun read => (.not read.1, read.2) :=
  ⟨fun _ _ _ => meaning_isIn, fun _ _ _ => meaning_not_isIn, fun _ _ _ => meaning_between,
    fun _ _ _ => meaning_not_between, fun _ _ => meaning_not_and, fun _ => meaning_not_not,
    fun _ known _ _ _ _ _ => Language.test_not known⟩

end Coffer
