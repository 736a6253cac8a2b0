import Coffer.Proofs.FilledReading
import Coffer.Proofs.Replacement

namespace Coffer.Language

/-! # Expressions in filled tokens

Where an expression is read, the expression with literals for its placeholders is read from the
filled tokens. A literal is taken wherever a placeholder is: only a sign would make a difference,
and a placeholder is never read after one.
-/

variable {values : List Literal} {fuel room least floor : Nat} {token : Token} {rest : List Token}

/-- What a signed operand is filled to: only numbers are signed. -/
theorem negated_filled {operand result : Expression} (signed : negated operand = .ok result) :
    negated (operand.filled values) = .ok (result.filled values) := by
  unfold negated at signed
  split at signed
  · split at signed
    · cases signed
    · cases signed
      rename_i bounded
      rw [Expression.filled_literal, negated, if_neg bounded, Expression.filled_literal]
  · cases signed
    rfl
  · cases signed

theorem affirmed_filled {operand result : Expression} (signed : affirmed operand = .ok result) :
    affirmed (operand.filled values) = .ok (result.filled values) := by
  unfold affirmed at signed
  split at signed <;> cases signed <;> rfl

section Placeholder

variable {first : Nat} {fault : Option LexicalFault} {found left : Expression} {after : Cursor}

theorem atom_question
    (read : atom fuel ⟨.symbol .question :: rest, fault, first⟩ = .ok (found, after)) :
    found = .parameter first ∧ after = ⟨rest, fault, first + 1⟩ := by
  cases fuel with
  | zero =>
      rw [atom] at read
      cases read
  | succ fuel =>
      rw [atom, Reader.bind_ok (Reader.next_cons _)] at read
      cases read
      exact ⟨rfl, rfl⟩

theorem signed_question
    (read : signed fuel floor ⟨.symbol .question :: rest, fault, first⟩ = .ok (found, after)) :
    found = .parameter first ∧ after = ⟨rest, fault, first + 1⟩ := by
  cases fuel with
  | zero =>
      rw [signed] at read
      cases read
  | succ fuel =>
      rw [signed_atom rfl] at read
      exact atom_question read

/-- Where a placeholder is read, the literal of its number is. -/
theorem placeholder_mirrors (writable : Writable values) {wider : Nat} (enough : 2 ≤ wider)
    (small : floor ≤ 9) :
    MirrorsAt values 1 ⟨.symbol .question :: rest, fault, first⟩ (signed fuel floor)
      (Expression.filled values) (signed wider floor) := by
  intro found after read
  obtain ⟨rfl, rfl⟩ := signed_question read
  refine ⟨⟨rfl, Nat.le_succ first, Nat.le_refl _⟩, fun given => ?_⟩
  obtain ⟨wider, rfl⟩ : ∃ fewer, wider = fewer + 2 := ⟨wider - 2, by omega⟩
  have given : values[first]? = some values[first] := List.getElem?_eq_getElem given
  have finite := writable _ (List.mem_of_getElem? given)
  rw [filled_question given, signed_literal finite small, Expression.filled_parameter given]
  rfl

/-- Nothing binds as tightly as a sign. -/
theorem tests_sign {cursor : Cursor}
    (read : tests fuel signPrecedence left cursor = .ok (found, after)) :
    found = left ∧ after = cursor := by
  cases fuel <;> rw [tests] at read <;> cases read <;> exact ⟨rfl, rfl⟩

theorem operations_sign {cursor : Cursor}
    (read : operations fuel signPrecedence left cursor = .ok (found, after)) : found = left := by
  cases fuel with
  | zero =>
      rw [operations] at read
      cases read
      rfl
  | succ fuel =>
      rw [operations, Reader.bind_ok Reader.glance_eq] at read
      cases seen : cursor.tokens.head?.bind operator? with
      | none =>
          rw [seen] at read
          cases read
          rfl
      | some operator =>
          have looser : ¬ signPrecedence ≤ operator.precedence := by cases operator <;> decide
          rw [seen] at read
          dsimp only at read
          rw [if_neg looser] at read
          cases read
          rfl

/-- After a sign, a placeholder is read by itself. -/
theorem expression_question
    (read : expression fuel signPrecedence ⟨.symbol .question :: rest, fault, first⟩ =
      .ok (found, after)) : found = .parameter first := by
  cases fuel with
  | zero =>
      rw [expression] at read
      cases read
  | succ fuel =>
      rw [expression] at read
      obtain ⟨operand, middle, alone, read⟩ := Reader.bind_eq_ok_iff.mp read
      obtain ⟨tested, last, untested, read⟩ := Reader.bind_eq_ok_iff.mp read
      obtain ⟨rfl, -⟩ := signed_question alone
      obtain ⟨rfl, -⟩ := tests_sign untested
      exact operations_sign read

end Placeholder

theorem atom_nil {fault : Option LexicalFault} {first : Nat} {result : Expression × Cursor} :
    atom fuel ⟨[], fault, first⟩ ≠ .ok result := by
  intro read
  cases fuel with
  | zero =>
      rw [atom] at read
      cases read
  | succ fuel =>
      rw [atom] at read
      obtain ⟨token, middle, taken, -⟩ := Reader.bind_eq_ok_iff.mp read
      cases taken

/-- What holds of the readers of expressions that are given some fuel. -/
structure ReadersMirrored (values : List Literal) (fuel : Nat) : Prop where
  expression : ∀ {room floor wider}, 6 * room + 4 ≤ fuel → fuel ≤ wider → floor ≤ 9 →
    Mirrors values room 1 (expression fuel floor) (Expression.filled values)
      (expression wider floor)
  signed : ∀ {room floor wider}, 6 * room + 3 ≤ fuel → fuel ≤ wider → floor ≤ 9 →
    Mirrors values room 1 (signed fuel floor) (Expression.filled values) (signed wider floor)
  atom : ∀ {room wider token rest fault first}, 6 * room + 2 ≤ fuel → fuel ≤ wider →
    token ≠ .symbol .question → (token :: rest).length ≤ room →
    MirrorsAt values 1 ⟨token :: rest, fault, first⟩ (atom fuel) (Expression.filled values)
      (atom wider)
  arguments : ∀ {room wider function first}, 6 * room + 5 ≤ fuel → fuel ≤ wider →
    Mirrors values room 1 (arguments fuel function first) (List.map (Expression.filled values))
      (arguments wider function first)
  tests : ∀ {room floor wider operand}, 6 * room + 5 ≤ fuel → fuel ≤ wider →
    Mirrors values room 0 (tests fuel floor operand) (Expression.filled values)
      (tests wider floor (operand.filled values))
  test : ∀ {room wider operand token}, 6 * room + 6 ≤ fuel → fuel ≤ wider →
    Mirrors values room 0 (test fuel operand token) (Expression.filled values)
      (test wider (operand.filled values) token)
  membership : ∀ {room wider operand}, 6 * room + 5 ≤ fuel → fuel ≤ wider →
    Mirrors values room 0 (membership fuel operand) (Expression.filled values)
      (membership wider (operand.filled values))
  range : ∀ {room wider operand}, 6 * room + 5 ≤ fuel → fuel ≤ wider →
    Mirrors values room 0 (range fuel operand) (Expression.filled values)
      (range wider (operand.filled values))
  operations : ∀ {room floor wider left}, 6 * room + 1 ≤ fuel → fuel ≤ wider →
    Mirrors values room 0 (operations fuel floor left) (Expression.filled values)
      (operations wider floor (left.filled values))

namespace ReadersMirrored

variable {wider : Nat} {operand left : Expression}

theorem expression_succ (mirrored : ReadersMirrored values fuel)
    (enough : 6 * room + 4 ≤ fuel + 1) (wide : fuel ≤ wider) (small : floor ≤ 9) :
    Mirrors values room 1 (Language.expression (fuel + 1) floor) (Expression.filled values)
      (Language.expression (wider + 1) floor) := by
  rw [Language.expression, Language.expression]
  change Mirrors values room (1 + 0) _ _ _
  refine (mirrored.signed (by omega) wide small).bind fun first some => ?_
  change Mirrors values (room - 1) (0 + 0) _ _ _
  refine (mirrored.tests (by omega) wide).bind fun tested _ => ?_
  exact mirrored.operations (by omega) wide

theorem tests_succ (writable : Writable values) (mirrored : ReadersMirrored values fuel)
    (enough : 6 * room + 5 ≤ fuel + 1) (wide : fuel ≤ wider) :
    Mirrors values room 0 (Language.tests (fuel + 1) floor operand) (Expression.filled values)
      (Language.tests (wider + 1) floor (operand.filled values)) := by
  rw [Language.tests, Language.tests]
  split
  · refine .takeIf writable (fun token starts => ?_) (fun token starts some => ?_) (.pure rfl)
    · cases token with
      | keyword word => cases word <;> first | rfl | cases starts
      | _ => rfl
    · change Mirrors values (room - 1) (0 + 0) _ _ _
      refine (mirrored.test (by omega) wide).bind fun tested _ => ?_
      exact mirrored.tests (by omega) wide
  · exact .pure rfl

theorem test_succ (writable : Writable values) (mirrored : ReadersMirrored values fuel)
    (enough : 6 * room + 6 ≤ fuel + 1) (wide : fuel ≤ wider) :
    Mirrors values room 0 (Language.test (fuel + 1) operand token) (Expression.filled values)
      (Language.test (wider + 1) (operand.filled values) token) := by
  unfold Language.test
  split
  · refine .accept writable rfl (fun some => ?_) ?_
    · refine Mirrors.mono ?_ (Nat.le_refl _) (Nat.zero_le 1)
      exact (Mirrors.expect (by decide)).map fun _ => rfl
    · refine Mirrors.mono ?_ (Nat.le_refl _) (Nat.zero_le 1)
      exact (Mirrors.expect (by decide)).map fun _ => rfl
  · refine Mirrors.mono ?_ (Nat.le_refl _) (Nat.zero_le (1 + 0))
    refine .next (fun cursor result ran => by cases ran) fun token _ some => ?_
    split
    · exact (mirrored.membership (by omega) wide).map fun _ => rfl
    · exact (mirrored.range (by omega) wide).map fun _ => rfl
    · refine Mirrors.mono ?_ (Nat.le_refl _) (Nat.zero_le 1)
      exact (mirrored.expression (by omega) wide (by decide)).map fun _ => rfl
    · exact .throw
  · exact mirrored.membership (by omega) wide
  · exact mirrored.range (by omega) wide

theorem membership_succ (writable : Writable values) (mirrored : ReadersMirrored values fuel)
    (enough : 6 * room + 5 ≤ fuel + 1) (wide : fuel ≤ wider) :
    Mirrors values room 0 (Language.membership (fuel + 1) operand) (Expression.filled values)
      (Language.membership (wider + 1) (operand.filled values)) := by
  rw [Language.membership, Language.membership]
  refine Mirrors.mono ?_ (Nat.le_refl _) (Nat.zero_le (1 + (1 + 1)))
  refine (Mirrors.expect (by decide)).bind fun _ some => ?_
  refine (Mirrors.separated writable fun within fewer =>
    mirrored.expression (by omega) wide (by decide)).bind fun items _ => ?_
  exact (Mirrors.expect (by decide)).map fun _ => Expression.filled_isIn

theorem range_succ (mirrored : ReadersMirrored values fuel)
    (enough : 6 * room + 5 ≤ fuel + 1) (wide : fuel ≤ wider) :
    Mirrors values room 0 (Language.range (fuel + 1) operand) (Expression.filled values)
      (Language.range (wider + 1) (operand.filled values)) := by
  rw [Language.range, Language.range]
  refine Mirrors.mono ?_ (Nat.le_refl _) (Nat.zero_le (1 + (1 + 1)))
  refine (mirrored.expression (by omega) wide (by decide)).bind fun low _ => ?_
  refine (Mirrors.expect (by decide)).bind fun _ _ => ?_
  exact (mirrored.expression (by omega) wide (by decide)).map fun high => rfl

theorem operations_succ (writable : Writable values) (mirrored : ReadersMirrored values fuel)
    (enough : 6 * room + 1 ≤ fuel + 1) (wide : fuel ≤ wider) :
    Mirrors values room 0 (Language.operations (fuel + 1) floor left) (Expression.filled values)
      (Language.operations (wider + 1) floor (left.filled values)) := by
  rw [Language.operations, Language.operations]
  refine .look looks_glance writable (.pure rfl) (fun token rest fault first apart fits => ?_)
    fun token rest fault first starts fits => ?_
  · rw [Option.bind_some]
    split
    · rename_i operator _
      split
      · refine MirrorsAt.mono ?_ (Nat.zero_le (1 + (1 + 0)))
        refine .head apart fits fun some => ?_
        have small : operator.precedence + 1 ≤ 9 := by cases operator <;> decide
        refine (mirrored.expression (by omega) wide small).bind fun right _ => ?_
        exact mirrored.operations (by omega) wide
      · exact Mirrors.pure rfl fits
    · exact Mirrors.pure rfl fits
  · have none : operator? token = none := by
      cases token with
      | keyword word => cases word <;> first | rfl | cases starts
      | symbol mark => cases mark <;> first | rfl | cases starts
      | _ => rfl
    rw [Option.bind_some, Option.bind_some, none]
    exact Mirrors.pure rfl fits

theorem arguments_succ (writable : Writable values) (mirrored : ReadersMirrored values fuel)
    {function : String} {first : Bool} (enough : 6 * room + 5 ≤ fuel + 1) (wide : fuel ≤ wider) :
    Mirrors values room 1 (Language.arguments (fuel + 1) function first)
      (List.map (Expression.filled values)) (Language.arguments (wider + 1) function first) := by
  have others (argument : Expression) {within : Nat} (less : within + 1 ≤ room) :
      Mirrors values within 1
        (Language.arguments fuel function false >>= fun rest => pure (argument :: rest))
        (List.map (Expression.filled values))
        (Language.arguments wider function false >>= fun rest =>
          pure (argument.filled values :: rest)) :=
    (mirrored.arguments (by omega) wide).map fun _ => rfl
  have plain {within : Nat} (less : within ≤ room) :
      Mirrors values within 1
        (do
          let argument ← Language.expression fuel 0
          let rest ← Language.arguments fuel function false
          return argument :: rest) (List.map (Expression.filled values))
        (do
          let argument ← Language.expression wider 0
          let rest ← Language.arguments wider function false
          return argument :: rest) := by
    refine Mirrors.mono ?_ (Nat.le_refl _) (Nat.le_add_left 1 1)
    refine (mirrored.expression (by omega) wide (by decide)).bind fun argument some => ?_
    exact others argument (by omega)
  have counted {within : Nat} (less : within ≤ room) :
      Mirrors values within 1
        (do
          let starred ← if function = "COUNT" then Reader.acceptSymbol .asterisk else pure false
          let argument ← if starred then pure .star else Language.expression fuel 0
          let rest ← Language.arguments fuel function false
          return argument :: rest) (List.map (Expression.filled values))
        (do
          let starred ← if function = "COUNT" then Reader.acceptSymbol .asterisk else pure false
          let argument ← if starred then pure .star else Language.expression wider 0
          let rest ← Language.arguments wider function false
          return argument :: rest) := by
    refine .ite (fun _ => ?_) fun _ => .handed (plain less)
    refine .accept writable rfl (fun some => .handed ?_) (plain less)
    exact (others .star (by omega)).mono (Nat.le_refl _) (Nat.zero_le 1)
  rw [Language.arguments, Language.arguments]
  refine .accept writable rfl (fun _ => .pure rfl) (.ite (fun taken => Bool.noConfusion taken) fun _ => ?_)
  refine .ite (fun _ => ?_) fun _ => counted (Nat.le_refl _)
  refine Mirrors.mono ?_ (Nat.le_refl _) (Nat.le_add_left 1 1)
  exact (Mirrors.expect (by decide)).bind fun _ _ => counted (Nat.sub_le _ _)

theorem qualified_mirrors (writable : Writable values) {first : String} :
    Mirrors values room 0 (qualified first) (Expression.filled values) (qualified first) := by
  refine .accept writable rfl (fun _ => ?_) (.pure rfl)
  refine .accept writable rfl (fun _ => .pure rfl) ?_
  refine Mirrors.mono ?_ (Nat.le_refl _) (Nat.zero_le 1)
  exact Mirrors.name.map fun _ => rfl

theorem atom_succ (writable : Writable values) (mirrored : ReadersMirrored values fuel)
    {fault : Option LexicalFault} {first : Nat}
    (enough : 6 * room + 2 ≤ fuel + 1) (wide : fuel ≤ wider) (apart : token ≠ .symbol .question)
    (fits : (token :: rest).length ≤ room) :
    MirrorsAt values 1 ⟨token :: rest, fault, first⟩ (Language.atom (fuel + 1))
      (Expression.filled values) (Language.atom (wider + 1)) := by
  rw [Language.atom, Language.atom]
  change MirrorsAt values (1 + 0) _ _ _ _
  refine .head apart fits fun some => ?_
  split
  · refine .accept writable rfl (fun _ => ?_) (qualified_mirrors writable)
    refine Mirrors.mono ?_ (Nat.le_refl _) (Nat.zero_le 1)
    exact (mirrored.arguments (by omega) wide).map fun arguments => Expression.filled_call
  · exact (Mirrors.lift fun _ => id).map fun _ => rfl
  · refine Mirrors.mono ?_ (Nat.le_refl _) (Nat.zero_le (1 + 1))
    refine (mirrored.expression (by omega) wide (by decide)).bind fun inner _ => ?_
    exact (Mirrors.expect (by decide)).map fun _ => rfl
  · exact absurd rfl apart
  · exact .pure rfl
  · exact .pure rfl
  · exact .pure rfl
  · exact .pure rfl
  · exact .throw

/-- A sign, applied to what is read after it. -/
theorem applied_mirrors (mirrored : ReadersMirrored values fuel)
    (apply : Expression → Except Error Expression) (enough : 6 * room + 4 ≤ fuel)
    (wide : fuel ≤ wider)
    (same : ∀ operand result, apply operand = .ok result →
      apply (operand.filled values) = .ok (result.filled values)) :
    Mirrors values room 1
      (Language.expression fuel signPrecedence >>= fun operand => liftM (apply operand))
      (Expression.filled values)
      (Language.expression wider signPrecedence >>= fun operand => liftM (apply operand)) := by
  change Mirrors values room (1 + 0) _ _ _
  exact (mirrored.expression enough wide (by decide)).bind fun operand _ => .lift (same operand)

/-- What follows a minus sign: digits are read together with it, so that the least integer can be
written, and anything else is not, so that a placeholder cannot be signed. -/
theorem minus_mirrors (writable : Writable values) (mirrored : ReadersMirrored values fuel)
    (enough : 6 * room + 4 ≤ fuel) (wide : fuel ≤ wider) :
    Mirrors values room 1
      (do
        match ← Reader.glance with
        | some (.number text) =>
          let _ ← Reader.next
          let literal ← numberLiteral true text
          return .literal literal
        | _ =>
          let operand ← Language.expression fuel signPrecedence
          negated operand) (Expression.filled values)
      (do
        match ← Reader.glance with
        | some (.number text) =>
          let _ ← Reader.next
          let literal ← numberLiteral true text
          return .literal literal
        | _ =>
          let operand ← Language.expression wider signPrecedence
          negated operand) := by
  have plain := mirrored.applied_mirrors negated enough wide fun _ _ => negated_filled
  refine .look looks_glance writable plain (fun token rest fault first apart fits => ?_)
    fun token rest fault first starts fits => ?_
  · split
    · change MirrorsAt values (1 + 0) _ _ _ _
      exact .head apart fits fun _ => (Mirrors.lift fun _ => id).map fun _ => rfl
    · exact plain fits
  · intro result after ran
    obtain ⟨operand, middle, read, signed⟩ := Reader.bind_eq_ok_iff.mp ran
    obtain rfl := expression_question read
    cases signed

theorem signed_succ (writable : Writable values) (mirrored : ReadersMirrored values fuel)
    (enough : 6 * room + 3 ≤ fuel + 1) (wide : fuel ≤ wider) (small : floor ≤ 9) :
    Mirrors values room 1 (Language.signed (fuel + 1) floor) (Expression.filled values)
      (Language.signed (wider + 1) floor) := by
  rintro ⟨tokens, fault, first⟩ fits
  cases tokens with
  | nil =>
      intro value after ran
      rw [Language.signed, Reader.bind_ok Reader.glance_eq] at ran
      exact absurd ran atom_nil
  | cons token rest =>
      by_cases apart : token = .symbol .question
      · subst apart
        exact placeholder_mirrors writable (by omega) small
      · have plain : MirrorsAt values 1 ⟨token :: rest, fault, first⟩ (Language.atom fuel)
            (Expression.filled values) (Language.atom wider) :=
          mirrored.atom (by omega) wide apart fits
        have some : 1 ≤ room := Nat.le_trans (Nat.succ_pos _) fits
        rw [Language.signed, Language.signed]
        refine .glance apart ?_
        split
        · split
          · refine MirrorsAt.mono ?_ (Nat.le_add_left 1 1)
            refine .head apart fits fun _ => ?_
            exact (mirrored.expression (by omega) wide (by decide)).map fun operand => rfl
          · exact plain
        · split
          · refine MirrorsAt.mono ?_ (Nat.le_add_left 1 1)
            refine .head apart fits fun _ => ?_
            exact mirrored.minus_mirrors writable (by omega) wide
          · exact plain
        · split
          · refine MirrorsAt.mono ?_ (Nat.le_add_left 1 1)
            refine .head apart fits fun _ => ?_
            exact mirrored.applied_mirrors affirmed (by omega) wide fun _ _ => affirmed_filled
          · exact plain
        · exact plain

/-- A reader without fuel is given no token to read. -/
theorem zero : ReadersMirrored values 0 := by
  constructor <;> intros <;> omega

theorem succ (writable : Writable values) (mirrored : ReadersMirrored values fuel) :
    ReadersMirrored values (fuel + 1) := by
  have before {wider : Nat} (wide : fuel + 1 ≤ wider) : ∃ fewer, wider = fewer + 1 :=
    ⟨wider - 1, by omega⟩
  constructor
  case expression =>
    intro _ _ _ enough wide small
    obtain ⟨wider, rfl⟩ := before wide
    exact mirrored.expression_succ enough (Nat.le_of_succ_le_succ wide) small
  case signed =>
    intro _ _ _ enough wide small
    obtain ⟨wider, rfl⟩ := before wide
    exact mirrored.signed_succ writable enough (Nat.le_of_succ_le_succ wide) small
  case atom =>
    intro _ _ _ _ _ _ enough wide apart fits
    obtain ⟨wider, rfl⟩ := before wide
    exact mirrored.atom_succ writable enough (Nat.le_of_succ_le_succ wide) apart fits
  case arguments =>
    intro _ _ _ _ enough wide
    obtain ⟨wider, rfl⟩ := before wide
    exact mirrored.arguments_succ writable enough (Nat.le_of_succ_le_succ wide)
  case tests =>
    intro _ _ _ _ enough wide
    obtain ⟨wider, rfl⟩ := before wide
    exact mirrored.tests_succ writable enough (Nat.le_of_succ_le_succ wide)
  case test =>
    intro _ _ _ _ enough wide
    obtain ⟨wider, rfl⟩ := before wide
    exact mirrored.test_succ writable enough (Nat.le_of_succ_le_succ wide)
  case membership =>
    intro _ _ _ enough wide
    obtain ⟨wider, rfl⟩ := before wide
    exact mirrored.membership_succ writable enough (Nat.le_of_succ_le_succ wide)
  case range =>
    intro _ _ _ enough wide
    obtain ⟨wider, rfl⟩ := before wide
    exact mirrored.range_succ enough (Nat.le_of_succ_le_succ wide)
  case operations =>
    intro _ _ _ _ enough wide
    obtain ⟨wider, rfl⟩ := before wide
    exact mirrored.operations_succ writable enough (Nat.le_of_succ_le_succ wide)

end ReadersMirrored

theorem readersMirrored (writable : Writable values) (fuel : Nat) : ReadersMirrored values fuel := by
  induction fuel with
  | zero => exact .zero
  | succ fuel ih => exact ih.succ writable

/-- An expression is read from filled tokens as it is from the others. -/
theorem anyExpression_mirrors (writable : Writable values) :
    Mirrors values room 1 anyExpression (Expression.filled values) anyExpression := by
  rintro ⟨tokens, fault, first⟩ fits result after ran
  have longer := @length_le_filled _ tokens fault writable first
  have wide := Nat.add_le_add_right (Nat.mul_le_mul_left 6 longer) 6
  have mirrored : Mirrors values tokens.length 1 _ _ _ :=
    (readersMirrored writable (6 * tokens.length + 6)).expression (by omega) wide (Nat.zero_le 9)
  exact mirrored (Nat.le_refl _) ran

end Coffer.Language
