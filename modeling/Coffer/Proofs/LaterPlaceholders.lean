import Coffer.Proofs.BoundValues

namespace Coffer

/-! # Later placeholders

Placeholders are numbered in the order in which they are read. Where more of them were read before,
a reader finds the same as elsewhere, with its own placeholders numbered on from those.
-/

namespace Language

variable {α β γ δ : Type} {earlier : Nat}

/-- The cursor where more placeholders were read before. -/
def Cursor.later (earlier : Nat) (cursor : Cursor) : Cursor :=
  { cursor with parameters := earlier + cursor.parameters }

/-- The expression with its placeholders numbered on from others. -/
def Expression.later (earlier : Nat) : Expression → Expression :=
  replaced fun index => .parameter (earlier + index)

/-- Whether a reader finds, where more placeholders were read before, what another one finds, as it
is then. -/
def Carries (earlier : Nat) (reader : Reader α) (image : α → β) (other : Reader β) : Prop :=
  ∀ ⦃cursor value after⦄, reader cursor = .ok (value, after) →
    other (cursor.later earlier) = .ok (image value, after.later earlier)

namespace Carries

variable {reader : Reader α} {image : α → β} {other : Reader β} {following : α → Reader γ}
variable {final : γ → δ} {others : β → Reader δ} {error : Error} {condition : Prop} {value : α}

theorem bind (front : Carries earlier reader image other)
    (back : ∀ value, Carries earlier (following value) final (others (image value))) :
    Carries earlier (reader >>= following) final (other >>= others) := by
  intro cursor result after ran
  obtain ⟨value, middle, first, second⟩ := Reader.bind_eq_ok_iff.mp ran
  rw [Reader.bind_ok (front first)]
  exact back value second

/-- A reader that finds no expressions, before one that may. -/
theorem seq {reader : Reader α} {others : α → Reader δ} (front : Carries earlier reader id reader)
    (back : ∀ value, Carries earlier (following value) final (others value)) :
    Carries earlier (reader >>= following) final (reader >>= others) :=
  front.bind back

theorem pure {found : β} (same : image value = found) :
    Carries earlier (Pure.pure value) image (Pure.pure found) := by
  intro cursor result after ran
  obtain ⟨rfl, rfl⟩ := Reader.pure_eq_ok_iff.mp ran
  exact congrArg (fun found => Except.ok (found, cursor.later earlier)) same.symm

theorem map {change : α → γ} {changeOther : β → δ} (front : Carries earlier reader image other)
    (same : ∀ value, final (change value) = changeOther (image value)) :
    Carries earlier (reader >>= fun value => Pure.pure (change value)) final
      (other >>= fun value => Pure.pure (changeOther value)) :=
  front.bind fun value => .pure (same value)

theorem throw : Carries earlier (MonadExcept.throw error : Reader α) image other :=
  fun _ _ _ ran => absurd ran Reader.throw_ne_ok

theorem lift {checked : Except Error α} {checkedOther : Except Error β}
    (same : ∀ value, checked = .ok value → checkedOther = .ok (image value)) :
    Carries earlier (liftM checked : Reader α) image (liftM checkedOther : Reader β) := by
  intro cursor value after ran
  obtain ⟨passed, rfl⟩ := Reader.lift_eq_ok_iff.mp ran
  exact Reader.lift_eq_ok_iff.mpr ⟨same value passed, rfl⟩

theorem ite [Decidable condition] {second : Reader α} {secondOther : Reader β}
    (holds : Carries earlier reader image other) (fails : Carries earlier second image secondOther) :
    Carries earlier (if condition then reader else second) image
      (if condition then other else secondOther) := by
  split
  · exact holds
  · exact fails

/-! ## Tokens -/

theorem next : Carries earlier Reader.next id Reader.next := by
  rintro ⟨tokens, fault, count⟩ token after ran
  cases tokens with
  | nil => cases ran
  | cons first rest =>
      cases ran
      rfl

theorem glance : Carries earlier Reader.glance id Reader.glance := by
  rintro cursor token after ⟨⟩
  rfl

theorem takeIf {test : Token → Bool} :
    Carries earlier (Reader.takeIf test) id (Reader.takeIf test) := by
  rintro ⟨tokens, fault, count⟩ found after ran
  by_cases stops : Stops test tokens
  · rw [Reader.takeIf_stops stops] at ran
    cases ran
    exact Reader.takeIf_stops stops
  · obtain ⟨token, rest, rfl, passes⟩ := exists_of_not_stops stops
    rw [Reader.takeIf_cons passes] at ran
    cases ran
    exact Reader.takeIf_cons passes

theorem accept {token : Token} : Carries earlier (Reader.accept token) id (Reader.accept token) :=
  takeIf.map fun _ => rfl

theorem expect {token : Token} : Carries earlier (Reader.expect token) id (Reader.expect token) :=
  next.seq fun _ => .ite (.pure rfl) .throw

theorem name : Carries earlier Reader.name id Reader.name := by
  refine next.seq fun token => ?_
  split
  · exact .pure rfl
  · exact .throw

theorem separatedWithin {reader : Reader α} {other : Reader β} (items : Carries earlier reader image other)
    (limit : Nat) : Carries earlier (Reader.separatedWithin reader limit) (List.map image)
      (Reader.separatedWithin other limit) := by
  induction limit with
  | zero => exact items.map fun _ => rfl
  | succ limit ih =>
      refine items.bind fun first => accept.seq fun found => .ite ?_ (.pure rfl)
      exact ih.map fun _ => rfl

theorem separated (items : Carries earlier reader image other) :
    Carries earlier (Reader.separated reader) (List.map image) (Reader.separated other) :=
  fun cursor _ _ ran => items.separatedWithin cursor.tokens.length ran

end Carries

/-! ## Expressions -/

namespace Expression

theorem later_call {function : String} {arguments : List Expression} :
    later earlier (.call function arguments) =
      .call function (arguments.map (Expression.later earlier)) := by
  rw [later, replaced, replacedList_eq]

theorem later_isIn {operand : Expression} {items : List Expression} :
    later earlier (.isIn operand items) =
      .isIn (operand.later earlier) (items.map (Expression.later earlier)) := by
  rw [later, replaced, replacedList_eq]

end Expression

theorem negated_later {operand result : Expression} (signed : negated operand = .ok result) :
    negated (operand.later earlier) = .ok (result.later earlier) := by
  unfold negated at signed
  split at signed
  · split at signed
    · cases signed
    · rename_i fits
      cases signed
      exact if_neg fits
  · cases signed
    rfl
  · cases signed

theorem affirmed_later {operand result : Expression} (signed : affirmed operand = .ok result) :
    affirmed (operand.later earlier) = .ok (result.later earlier) := by
  unfold affirmed at signed
  split at signed
  · cases signed
    rfl
  · cases signed
    rfl
  · cases signed

theorem qualified_carries {first : String} :
    Carries earlier (qualified first) (Expression.later earlier) (qualified first) := by
  refine Carries.accept.seq fun _ => .ite ?_ (.pure rfl)
  exact Carries.accept.seq fun _ => .ite (.pure rfl) (Carries.name.map fun _ => rfl)

theorem placeholder_carries :
    Carries earlier placeholder (Expression.later earlier) placeholder := by
  rintro cursor value after ⟨⟩
  rfl

/-- What the readers of expressions find that may call each other as often as the fuel says. -/
structure CarriesExpressions (earlier fuel : Nat) : Prop where
  expression : ∀ floor, Carries earlier (Language.expression fuel floor) (Expression.later earlier)
    (Language.expression fuel floor)
  signed : ∀ floor, Carries earlier (Language.signed fuel floor) (Expression.later earlier)
    (Language.signed fuel floor)
  atom : Carries earlier (Language.atom fuel) (Expression.later earlier) (Language.atom fuel)
  arguments : ∀ function first, Carries earlier (Language.arguments fuel function first)
    (List.map (Expression.later earlier)) (Language.arguments fuel function first)
  tests : ∀ floor operand, Carries earlier (Language.tests fuel floor operand)
    (Expression.later earlier) (Language.tests fuel floor (operand.later earlier))
  test : ∀ operand token, Carries earlier (Language.test fuel operand token)
    (Expression.later earlier) (Language.test fuel (operand.later earlier) token)
  membership : ∀ operand, Carries earlier (Language.membership fuel operand)
    (Expression.later earlier) (Language.membership fuel (operand.later earlier))
  range : ∀ operand, Carries earlier (Language.range fuel operand) (Expression.later earlier)
    (Language.range fuel (operand.later earlier))
  operations : ∀ floor operand, Carries earlier (Language.operations fuel floor operand)
    (Expression.later earlier) (Language.operations fuel floor (operand.later earlier))

namespace CarriesExpressions

variable {fuel : Nat}

theorem zero : CarriesExpressions earlier 0 := by
  constructor <;> intros
  case tests =>
    rw [Language.tests, Language.tests]
    exact .pure rfl
  case operations =>
    rw [Language.operations, Language.operations]
    exact .pure rfl
  all_goals
    simp only [Language.expression, Language.signed, Language.atom, Language.arguments,
      Language.test, Language.membership, Language.range]
    exact .throw

variable (all : CarriesExpressions earlier fuel)
include all

theorem signed_succ (floor : Nat) :
    Carries earlier (Language.signed (fuel + 1) floor) (Expression.later earlier)
      (Language.signed (fuel + 1) floor) := by
  have sign {apply : Expression → Except Error Expression}
      (applies : ∀ operand result, apply operand = .ok result →
        apply (operand.later earlier) = .ok (result.later earlier)) :
      Carries earlier
        (Language.expression fuel signPrecedence >>= fun operand => liftM (apply operand))
        (Expression.later earlier)
        (Language.expression fuel signPrecedence >>= fun operand => liftM (apply operand)) :=
    (all.expression signPrecedence).bind fun operand => .lift (applies operand)
  rw [Language.signed]
  refine Carries.glance.seq fun seen => ?_
  split
  · refine .ite (Carries.next.seq fun _ => ?_) all.atom
    exact (all.expression 3).map fun _ => rfl
  · refine .ite (Carries.next.seq fun _ => Carries.glance.seq fun seen => ?_) all.atom
    split
    · refine Carries.next.seq fun _ => ?_
      exact Carries.seq (.lift fun _ passed => passed) fun _ => .pure rfl
    · exact sign fun _ _ => negated_later
  · exact .ite (Carries.next.seq fun _ => sign fun _ _ => affirmed_later) all.atom
  · exact all.atom

theorem atom_succ :
    Carries earlier (Language.atom (fuel + 1)) (Expression.later earlier)
      (Language.atom (fuel + 1)) := by
  rw [Language.atom]
  refine Carries.next.seq fun token => ?_
  split
  · refine Carries.accept.seq fun _ => .ite ?_ qualified_carries
    exact (all.arguments _ true).map fun _ => Expression.later_call
  · exact Carries.seq (.lift fun _ passed => passed) fun _ => .pure rfl
  · exact (all.expression 0).bind fun _ => Carries.expect.seq fun _ => .pure rfl
  · exact placeholder_carries
  · exact .pure rfl
  · exact .pure rfl
  · exact .pure rfl
  · exact .pure rfl
  · exact .throw

theorem arguments_succ (function : String) (first : Bool) :
    Carries earlier (Language.arguments (fuel + 1) function first)
      (List.map (Expression.later earlier)) (Language.arguments (fuel + 1) function first) := by
  have others (argument : Expression) : Carries earlier
      (Language.arguments fuel function false >>= fun rest => pure (argument :: rest))
      (List.map (Expression.later earlier))
      (Language.arguments fuel function false >>= fun rest =>
        pure (argument.later earlier :: rest)) :=
    (all.arguments function false).map fun _ => rfl
  have starred : Carries earlier (do
      let starred ← if function = "COUNT" then Reader.acceptSymbol .asterisk else pure false
      let argument ← if starred then pure .star else Language.expression fuel 0
      let rest ← Language.arguments fuel function false
      return argument :: rest) (List.map (Expression.later earlier)) (do
      let starred ← if function = "COUNT" then Reader.acceptSymbol .asterisk else pure false
      let argument ← if starred then pure .star else Language.expression fuel 0
      let rest ← Language.arguments fuel function false
      return argument :: rest) := by
    have rest (starred : Bool) : Carries earlier (do
        let argument ← if starred then pure .star else Language.expression fuel 0
        let rest ← Language.arguments fuel function false
        return argument :: rest) (List.map (Expression.later earlier)) (do
        let argument ← if starred then pure .star else Language.expression fuel 0
        let rest ← Language.arguments fuel function false
        return argument :: rest) :=
      .ite (others .star) ((all.expression 0).bind others)
    exact .ite (Carries.accept.seq rest) (rest false)
  rw [Language.arguments]
  exact Carries.accept.seq fun _ =>
    .ite (.pure rfl) (.ite (Carries.expect.seq fun _ => starred) starred)

theorem tests_succ (floor : Nat) (operand : Expression) :
    Carries earlier (Language.tests (fuel + 1) floor operand) (Expression.later earlier)
      (Language.tests (fuel + 1) floor (operand.later earlier)) := by
  rw [Language.tests, Language.tests]
  refine .ite (Carries.takeIf.seq fun taken => ?_) (.pure rfl)
  split
  · exact (all.test operand _).bind fun _ => all.tests floor _
  · exact .pure rfl

theorem test_succ (operand : Expression) (token : Token) :
    Carries earlier (Language.test (fuel + 1) operand token) (Expression.later earlier)
      (Language.test (fuel + 1) (operand.later earlier) token) := by
  unfold Language.test
  split
  · refine Carries.accept.seq fun denied => Carries.expect.seq fun _ => .pure ?_
    cases denied <;> rfl
  · refine Carries.next.seq fun second => ?_
    split
    · exact (all.membership operand).map fun _ => rfl
    · exact (all.range operand).map fun _ => rfl
    · exact (all.expression comparisonPrecedence).map fun _ => rfl
    · exact .throw
  · exact all.membership operand
  · exact all.range operand

theorem membership_succ (operand : Expression) :
    Carries earlier (Language.membership (fuel + 1) operand) (Expression.later earlier)
      (Language.membership (fuel + 1) (operand.later earlier)) := by
  rw [Language.membership, Language.membership]
  refine Carries.expect.seq fun _ => (all.expression 0).separated.bind fun _ => ?_
  exact Carries.expect.map fun _ => Expression.later_isIn

theorem range_succ (operand : Expression) :
    Carries earlier (Language.range (fuel + 1) operand) (Expression.later earlier)
      (Language.range (fuel + 1) (operand.later earlier)) := by
  rw [Language.range, Language.range]
  refine (all.expression comparisonPrecedence).bind fun _ => Carries.expect.seq fun _ => ?_
  exact (all.expression comparisonPrecedence).map fun _ => rfl

theorem operations_succ (floor : Nat) (operand : Expression) :
    Carries earlier (Language.operations (fuel + 1) floor operand) (Expression.later earlier)
      (Language.operations (fuel + 1) floor (operand.later earlier)) := by
  rw [Language.operations, Language.operations]
  refine Carries.glance.seq fun seen => ?_
  split
  · rename_i operator _
    refine .ite (Carries.next.seq fun _ => ?_) (.pure rfl)
    exact (all.expression (operator.precedence + 1)).bind fun right =>
      all.operations floor (.binary operator operand right)
  · exact .pure rfl

theorem succ : CarriesExpressions earlier (fuel + 1) where
  expression floor := by
    rw [Language.expression]
    exact (all.signed floor).bind fun _ => (all.tests floor _).bind fun _ => all.operations floor _
  signed := all.signed_succ
  atom := all.atom_succ
  arguments := all.arguments_succ
  tests := all.tests_succ
  test := all.test_succ
  membership := all.membership_succ
  range := all.range_succ
  operations := all.operations_succ

end CarriesExpressions

theorem carriesExpressions (earlier fuel : Nat) : CarriesExpressions earlier fuel := by
  induction fuel with
  | zero => exact .zero
  | succ fuel ih => exact ih.succ

/-- An expression reads alike wherever it stands among placeholders. -/
theorem anyExpression_carries (earlier : Nat) :
    Carries earlier anyExpression (Expression.later earlier) anyExpression :=
  fun cursor _ _ ran => (carriesExpressions earlier (6 * cursor.tokens.length + 6)).expression 0 ran

end Language

open Language (Expression)

variable {earlier values : List Value} {resolve : Resolver} {expression : Expression}

/-- Placeholders that are numbered on from others stand for the values behind those of the others. -/
theorem represents_later :
    Represents values (earlier ++ values) resolve fun index => .parameter (earlier.length + index) where
  operand index := by
    have same : (earlier ++ values)[earlier.length + index]? = values[index]? := by
      rw [List.getElem?_append_right (Nat.le_add_right _ _), Nat.add_sub_cancel_left]
    simp only [Operand.ofExpression, same]
    cases values[index]? with
    | none => exact .of_error
    | some value => exact .refl
  reading index := rfl

theorem predicate_later (earlier : List Value) (blind : Blind resolve) :
    Agree (Predicate.ofExpression values resolve expression)
      (Predicate.ofExpression (earlier ++ values) resolve (expression.later earlier.length)) :=
  predicate_replaced represents_later blind

end Coffer
