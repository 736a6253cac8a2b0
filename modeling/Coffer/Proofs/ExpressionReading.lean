import Coffer.Proofs.Readable

namespace Coffer.Language

/-! # Expressions read back

Reading by precedence climbing undoes the parentheses of rendering. An operand that stands in
its place without parentheses is read up to the operators that follow it; these are then found
where the rendering put them, since nothing in the operand takes them in.
-/

variable {expression left right operand low high : Expression} {operator : Operator}
variable {tokens rest : List Token} {token : Token} {fuel floor first precedence edge : Nat}
variable {fault : Option LexicalFault}

/-- Whether a token goes on with a name before it. -/
def followsName (token : Token) : Bool :=
  token == .symbol .openParen || token == .symbol .period

/-- Whether a rest goes on with an operand before it neither by a call nor by a test, nor by
an operator that binds as tightly as the edge of the operand. -/
structure Follows (edge : Nat) (rest : List Token) : Prop where
  plain : Stops followsName rest
  untested : Stops startsTest rest
  loose : ∀ token ∈ rest.head?, ∀ operator ∈ operator? token, operator.precedence < edge

theorem Follows.mono {wider : Nat} (follows : Follows edge rest) (within : edge ≤ wider) :
    Follows wider rest :=
  ⟨follows.plain, follows.untested, fun token head operator found =>
    Nat.lt_of_lt_of_le (follows.loose token head operator found) within⟩

theorem operator?_token : operator? operator.token = some operator := by
  cases operator <;> rfl

theorem follows_operator (loose : operator.precedence < edge) :
    Follows edge (operator.token :: rest) where
  plain := by
    intro token head
    cases head
    cases operator <;> rfl
  untested := by
    intro token head
    cases head
    cases operator <;> rfl
  loose := by
    intro token head other found
    cases head
    rw [operator?_token] at found
    cases found
    exact loose

theorem follows_cons (plain : followsName token = false) (untested : startsTest token = false)
    (none : operator? token = none) : Follows edge (token :: rest) where
  plain := by
    intro other head
    cases head
    exact plain
  untested := by
    intro other head
    cases head
    exact untested
  loose := by
    intro other head operator found
    cases head
    rw [none] at found
    cases found

theorem follows_closeParen : Follows edge (.symbol .closeParen :: rest) :=
  follows_cons rfl rfl rfl

theorem follows_comma : Follows edge (.symbol .comma :: rest) :=
  follows_cons rfl rfl rfl

/-- Whether tokens are read as an operand by themselves. -/
def ReadsAtom (tokens : List Token) (expression : Expression) : Prop :=
  ∀ ⦃floor fuel first rest⦄, floor ≤ 9 → Stops followsName rest →
    Consecutive first expression.placeholders → 6 * (tokens ++ rest).length + 5 ≤ fuel →
    signed fuel floor ⟨tokens ++ rest, none, first⟩ =
      .ok (expression, ⟨rest, none, first + expression.placeholders.length⟩)

/-- Whether tokens are read as an operand up to the operators that follow, as long as the
floor is no higher than the precedence. -/
def ReadsOperand (tokens : List Token) (expression : Expression) (precedence edge : Nat) : Prop :=
  ∀ ⦃floor fuel first rest⦄, floor ≤ 9 → floor ≤ precedence → Follows edge rest →
    Consecutive first expression.placeholders → 6 * (tokens ++ rest).length + 6 ≤ fuel →
    ∃ left, 6 * rest.length + 5 ≤ left ∧
      Language.expression fuel floor ⟨tokens ++ rest, none, first⟩ =
        operations left floor expression ⟨rest, none, first + expression.placeholders.length⟩

/-- Where the operators that follow are none, it does not matter how tightly an operand binds. -/
theorem ReadsOperand.loosely (reads : ReadsOperand tokens expression precedence edge) :
    ReadsOperand tokens expression 0 0 :=
  fun _ _ _ _ small loose follows => reads small (Nat.le_trans loose (Nat.zero_le precedence))
    (follows.mono (Nat.zero_le edge))

theorem tests_stops (untested : Stops startsTest rest) :
    tests fuel floor expression ⟨rest, none, first⟩ = .ok (expression, ⟨rest, none, first⟩) := by
  cases fuel with
  | zero =>
      rw [tests]
      rfl
  | succ fuel =>
      rw [tests]
      split
      · rw [Reader.bind_ok (Reader.takeIf_stops untested)]
        rfl
      · rfl

theorem operations_stops
    (loose : ∀ token ∈ rest.head?, ∀ operator ∈ operator? token, operator.precedence < floor) :
    operations fuel floor expression ⟨rest, none, first⟩ =
      .ok (expression, ⟨rest, none, first⟩) := by
  cases fuel with
  | zero =>
      rw [operations]
      rfl
  | succ fuel =>
      rw [operations, Reader.bind_ok Reader.glance_eq]
      cases found : rest.head?.bind operator? with
      | none => rfl
      | some operator =>
          obtain ⟨token, head, same⟩ := Option.bind_eq_some_iff.mp found
          have below := loose token head operator same
          simp only [Nat.not_le.mpr below, if_false]
          rfl

theorem ReadsAtom.asOperand (reads : ReadsAtom tokens expression) :
    ReadsOperand tokens expression precedence edge := by
  intro floor fuel first rest low _ follows numbered enough
  obtain ⟨fuel, rfl⟩ : ∃ fewer, fuel = fewer + 1 := ⟨fuel - 1, by omega⟩
  refine ⟨fuel, ?_, ?_⟩
  · rw [List.length_append] at enough
    omega
  · rw [Language.expression, Reader.bind_ok (reads low follows.plain numbered (by omega)),
      Reader.bind_ok (tests_stops follows.untested)]

/-- An operand is read to its end where no operator is taken after it. -/
theorem ReadsOperand.finish (reads : ReadsOperand tokens expression precedence edge)
    (small : floor ≤ 9) (loose : floor ≤ precedence) (within : floor ≤ edge)
    (follows : Follows floor rest) (numbered : Consecutive first expression.placeholders)
    (enough : 6 * (tokens ++ rest).length + 6 ≤ fuel) :
    Language.expression fuel floor ⟨tokens ++ rest, none, first⟩ =
      .ok (expression, ⟨rest, none, first + expression.placeholders.length⟩) := by
  obtain ⟨left, -, read⟩ := reads small loose (follows.mono within) numbered enough
  rw [read, operations_stops follows.loose]

/-- Whether a token stands before an operand and is read apart from it. -/
def isPrefix (token : Token) : Bool :=
  token == .keyword .not || token == .symbol .minus || token == .symbol .plus

theorem signed_atom (plain : isPrefix token = false) :
    signed (fuel + 1) floor ⟨token :: rest, fault, first⟩ = atom fuel ⟨token :: rest, fault, first⟩ := by
  rw [signed, Reader.bind_ok Reader.glance_eq]
  cases token with
  | number text | string content | identifier name => rfl
  | keyword word =>
      cases word with
      | not => cases plain
      | _ => rfl
  | symbol mark =>
      cases mark with
      | minus | plus => cases plain
      | _ => rfl

/-- Between parentheses any expression is an operand by itself. -/
theorem ReadsOperand.parenthesized (reads : ReadsOperand tokens expression precedence edge) :
    ReadsAtom (.symbol .openParen :: (tokens ++ [.symbol .closeParen])) expression := by
  intro floor fuel first rest _ _ numbered enough
  obtain ⟨fuel, rfl⟩ : ∃ fewer, fuel = fewer + 2 := ⟨fuel - 2, by omega⟩
  have form : .symbol .openParen :: (tokens ++ [.symbol .closeParen]) ++ rest =
      .symbol .openParen :: (tokens ++ .symbol .closeParen :: rest) := by
    simp
  rw [form] at enough ⊢
  have inner := reads.finish (Nat.zero_le 9) (Nat.zero_le _) (Nat.zero_le _)
    (@follows_closeParen rest 0) numbered
    (show 6 * (tokens ++ .symbol .closeParen :: rest).length + 6 ≤ fuel by
      rw [List.length_cons] at enough
      omega)
  rw [signed_atom rfl, atom, Reader.bind_ok (Reader.next_cons _)]
  dsimp only
  rw [Reader.bind_ok inner, Reader.expectSymbol, Reader.bind_ok (Reader.expect_cons _)]
  rfl

/-! ## Operands without operators -/

theorem without_openParen (plain : Stops followsName rest) : Without (.symbol .openParen) rest :=
  Stops.mono plain fun _ same => Bool.or_eq_true_iff.mpr (.inl same)

theorem without_period (plain : Stops followsName rest) : Without (.symbol .period) rest :=
  Stops.mono plain fun _ same => Bool.or_eq_true_iff.mpr (.inr same)

theorem field_reads {name : String} : ReadsAtom [.identifier name] (.field none name) := by
  intro floor fuel first rest _ plain _ enough
  obtain ⟨fuel, rfl⟩ : ∃ fewer, fuel = fewer + 2 := ⟨fuel - 2, by omega⟩
  rw [List.singleton_append, signed_atom rfl, atom, Reader.bind_ok (Reader.next_cons _)]
  dsimp only
  rw [Reader.acceptSymbol, Reader.bind_ok (Reader.accept_stops (without_openParen plain)),
    if_neg Bool.false_ne_true, qualified, Reader.acceptSymbol,
    Reader.bind_ok (Reader.accept_stops (without_period plain))]
  rfl

theorem qualifiedField_reads {relation name : String} :
    ReadsAtom [.identifier relation, .symbol .period, .identifier name]
      (.field (some relation) name) := by
  intro floor fuel first rest _ _ _ enough
  obtain ⟨fuel, rfl⟩ : ∃ fewer, fuel = fewer + 2 := ⟨fuel - 2, by omega⟩
  rw [List.cons_append, List.cons_append, List.singleton_append, signed_atom rfl, atom,
    Reader.bind_ok (Reader.next_cons _)]
  dsimp only
  rw [Reader.acceptSymbol, Reader.bind_ok (Reader.accept_stops (without_cons (by decide))),
    if_neg Bool.false_ne_true, qualified, Reader.acceptSymbol,
    Reader.bind_ok (Reader.accept_cons _), if_pos rfl, Reader.acceptSymbol,
    Reader.bind_ok (Reader.accept_stops (without_cons (by simp)))]
  rfl

theorem parameter_reads {index : Nat} : ReadsAtom [.symbol .question] (.parameter index) := by
  intro floor fuel first rest _ _ numbered enough
  obtain ⟨fuel, rfl⟩ : ∃ fewer, fuel = fewer + 2 := ⟨fuel - 2, by omega⟩
  obtain ⟨rfl, -⟩ := List.cons.inj numbered
  rw [List.singleton_append, signed_atom rfl, atom, Reader.bind_ok (Reader.next_cons _)]
  rfl

theorem signed_number {value : Literal} {negative : Bool} {text : String}
    (read : numberLiteral negative text = .ok value) (small : floor ≤ 9) :
    signed (fuel + 2) floor ⟨tokensIn (signedNumber negative text) ++ rest, fault, first⟩ =
      .ok (.literal value, ⟨rest, fault, first⟩) := by
  have found : ∀ cursor : Cursor, (liftM (numberLiteral negative text) : Reader Literal) cursor =
      .ok (value, cursor) := by
    intro cursor
    rw [read]
    rfl
  cases negative with
  | false =>
      change signed (fuel + 2) floor ⟨.number text :: rest, fault, first⟩ = _
      rw [signed_atom rfl, atom, Reader.bind_ok (Reader.next_cons _)]
      dsimp only
      rw [Reader.bind_ok (found _)]
      rfl
  | true =>
      change signed (fuel + 2) floor ⟨.symbol .minus :: .number text :: rest, fault, first⟩ = _
      rw [signed, Reader.bind_ok Reader.glance_eq]
      dsimp only [List.head?_cons]
      rw [if_pos (show floor ≤ signPrecedence from small), Reader.bind_ok (Reader.next_cons _),
        Reader.bind_ok Reader.glance_eq]
      dsimp only [List.head?_cons]
      rw [Reader.bind_ok (Reader.next_cons _), Reader.bind_ok (found _)]
      rfl

/-- A token that stands for a literal by itself. -/
theorem signed_constant {value : Literal} (plain : isPrefix token = false)
    (read : atom (fuel + 1) ⟨token :: rest, fault, first⟩ =
      .ok (.literal value, ⟨rest, fault, first⟩)) :
    signed (fuel + 2) floor ⟨[token] ++ rest, fault, first⟩ =
      .ok (.literal value, ⟨rest, fault, first⟩) := by
  rw [List.singleton_append, signed_atom plain, read]

/-- A literal is read whatever follows it. -/
theorem signed_literal {value : Literal} (finite : ∀ x, value = .real x → x.isFinite = true)
    (small : floor ≤ 9) :
    signed (fuel + 2) floor ⟨tokensIn value.marks ++ rest, fault, first⟩ =
      .ok (.literal value, ⟨rest, fault, first⟩) := by
  cases value with
  | integer number => exact signed_number (numberLiteral_integer number) small
  | real number =>
      obtain ⟨digits, fraction, pointed, value, form⟩ := realMarks_finite (finite number rfl)
      rw [Literal.marks, form]
      exact signed_number (numberLiteral_pointed (finite number rfl) pointed value) small
  | null =>
      refine @signed_constant _ (.keyword .null) _ _ _ _ .null rfl ?_
      rw [atom]
      rfl
  | string content =>
      refine @signed_constant _ (.string content) _ _ _ _ (.string content) rfl ?_
      rw [atom]
      rfl
  | boolean truth =>
      cases truth with
      | false =>
          refine @signed_constant _ (.keyword .false) _ _ _ _ (.boolean false) rfl ?_
          rw [atom]
          rfl
      | true =>
          refine @signed_constant _ (.keyword .true) _ _ _ _ (.boolean true) rfl ?_
          rw [atom]
          rfl

theorem literal_reads {value : Literal} (finite : ∀ x, value = .real x → x.isFinite = true) :
    ReadsAtom (tokensIn value.marks) (.literal value) := by
  intro floor fuel first rest small _ _ enough
  obtain ⟨fuel, rfl⟩ : ∃ fewer, fuel = fewer + 2 := ⟨fuel - 2, by omega⟩
  exact signed_literal finite small

/-! ## Calls -/

/-- The tokens an expression can start with. -/
def startsExpression : Token → Bool
  | .keyword word => word == .not || word == .null || word == .true || word == .false
  | .symbol mark => mark == .minus || mark == .openParen || mark == .question
  | _ => true

/-- Whether tokens start as an expression does. -/
def Leads (tokens : List Token) : Prop :=
  ∃ token others, tokens = token :: others ∧ startsExpression token = true

theorem Leads.append (leads : Leads tokens) : Leads (tokens ++ rest) := by
  obtain ⟨token, others, rfl, starts⟩ := leads
  exact ⟨token, others ++ rest, rfl, starts⟩

theorem Leads.without (leads : Leads tokens) (none : startsExpression token = false) :
    Without token tokens := by
  obtain ⟨leading, others, rfl, starts⟩ := leads
  refine without_cons ?_
  rintro rfl
  exact Bool.false_ne_true (none.symm.trans starts)

theorem leads_guarded {marks : List Mark} {place : Nat} (leads : Leads (tokensIn marks)) :
    Leads (tokensIn (operand.guarded marks place)) := by
  rw [Expression.guarded]
  split
  · rw [tokensIn_parenthesized]
    exact ⟨_, _, rfl, rfl⟩
  · exact leads

theorem leads_signedNumber {negative : Bool} {text : String} :
    Leads (tokensIn (signedNumber negative text)) := by
  cases negative with
  | false => exact ⟨_, _, rfl, rfl⟩
  | true => exact ⟨_, _, rfl, rfl⟩

/-- A readable expression starts with none of the tokens that end a list or stand for all
rows. -/
theorem leads_of_readable (readable : expression.Readable) : Leads (tokensIn expression.marks) := by
  induction readable with
  | @field relation name =>
      cases relation with
      | none => exact ⟨_, _, rfl, rfl⟩
      | some relation => exact ⟨_, _, rfl, rfl⟩
  | @literal value finite =>
      rw [Expression.marks]
      cases value with
      | integer number => exact leads_signedNumber
      | real number =>
          obtain ⟨digits, fraction, -, -, form⟩ := realMarks_finite (finite number rfl)
          rw [Literal.marks, form]
          exact leads_signedNumber
      | null | string content => exact ⟨_, _, rfl, rfl⟩
      | boolean truth =>
          cases truth with
          | false => exact ⟨_, _, rfl, rfl⟩
          | true => exact ⟨_, _, rfl, rfl⟩
  | parameter => exact ⟨_, _, rfl, rfl⟩
  | call starred all ih => exact ⟨_, _, rfl, rfl⟩
  | binary first second leading _ =>
      rw [Expression.marks, tokensIn_append]
      exact (leads_guarded leading).append
  | not only ih => exact ⟨_, _, rfl, rfl⟩
  | isNull only leading =>
      rw [Expression.marks, tokensIn_append]
      exact (leads_guarded leading).append
  | isIn first nonempty all leading _ =>
      rw [Expression.marks, tokensIn_append]
      exact (leads_guarded leading).append
  | between first second third leading _ _ =>
      rw [Expression.marks, tokensIn_append]
      exact (leads_guarded leading).append

/-- Whether tokens are read as an argument of a function. Only COUNT takes a star. -/
def ReadsArgument (function : String) (tokens : List Token) (argument : Expression) : Prop :=
  argument = .star ∧ tokens = [.symbol .asterisk] ∧ function = "COUNT" ∨
    Leads tokens ∧ ReadsOperand tokens argument 0 0

section Arguments

variable {function : String} {argument : Expression} {others : List Expression} {β : Type}
variable {next : Expression → Reader β} {shown : Expression → List Token}

theorem argument_reads (reads : ReadsArgument function tokens argument) (follows : Follows 0 rest)
    (numbered : Consecutive first argument.placeholders)
    (enough : 6 * (tokens ++ rest).length + 6 ≤ fuel) :
    (do
      let starred ← if function = "COUNT" then Reader.acceptSymbol .asterisk else pure false
      let argument ← if starred then pure .star else Language.expression fuel 0
      next argument : Reader β) ⟨tokens ++ rest, none, first⟩ =
      next argument ⟨rest, none, first + argument.placeholders.length⟩ := by
  rcases reads with ⟨rfl, rfl, rfl⟩ | ⟨leads, reads⟩
  · change (Reader.accept (.symbol .asterisk) >>= _) ⟨.symbol .asterisk :: rest, none, first⟩ = _
    rw [Reader.bind_ok (Reader.accept_cons _)]
    rfl
  · have unstarred : Reader.acceptSymbol .asterisk ⟨tokens ++ rest, none, first⟩ =
        .ok (false, ⟨tokens ++ rest, none, first⟩) :=
      Reader.accept_stops (leads.append.without rfl)
    have read := reads.finish (Nat.zero_le 9) (Nat.zero_le _) (Nat.zero_le _) follows numbered enough
    split
    · rw [Reader.bind_ok unstarred]
      exact Reader.bind_ok read
    · exact Reader.bind_ok read

/-- The tokens of arguments after the first one. -/
def furtherTokens (shown : Expression → List Token) (arguments : List Expression) : List Token :=
  arguments.flatMap fun argument => .symbol .comma :: shown argument

theorem follows_furtherTokens :
    Follows edge (furtherTokens shown others ++ .symbol .closeParen :: rest) := by
  cases others with
  | nil => exact follows_closeParen
  | cons argument others => exact follows_comma

theorem ReadsArgument.open (reads : ReadsArgument function tokens argument) :
    Without (.symbol .closeParen) (tokens ++ rest) := by
  rcases reads with ⟨-, rfl, -⟩ | ⟨leads, -⟩
  · exact without_cons (by decide)
  · exact leads.append.without rfl

theorem furtherArguments_read
    (all : ∀ argument ∈ others, ReadsArgument function (shown argument) argument)
    (numbered : Consecutive first (others.flatMap Expression.placeholders))
    (enough : 6 * (furtherTokens shown others ++ .symbol .closeParen :: rest).length + 7 ≤ fuel) :
    arguments fuel function false
        ⟨furtherTokens shown others ++ .symbol .closeParen :: rest, none, first⟩ =
      .ok (others, ⟨rest, none, first + (others.flatMap Expression.placeholders).length⟩) := by
  obtain ⟨fuel, rfl⟩ : ∃ fewer, fuel = fewer + 1 := ⟨fuel - 1, by omega⟩
  induction others generalizing first fuel with
  | nil =>
      change arguments (fuel + 1) function false ⟨.symbol .closeParen :: rest, none, first⟩ = _
      rw [arguments, Reader.acceptSymbol, Reader.bind_ok (Reader.accept_cons _)]
      rfl
  | cons argument others ih =>
      obtain ⟨reads, all⟩ := List.forall_mem_cons.mp all
      rw [List.flatMap_cons] at numbered
      obtain ⟨front, back⟩ := consecutive_append.mp numbered
      have form : furtherTokens shown (argument :: others) ++ .symbol .closeParen :: rest =
          .symbol .comma :: (shown argument ++
            (furtherTokens shown others ++ .symbol .closeParen :: rest)) := by
        simp [furtherTokens]
      rw [form] at enough ⊢
      simp only [List.length_cons, List.length_append] at enough
      obtain ⟨fuel, rfl⟩ : ∃ fewer, fuel = fewer + 1 := ⟨fuel - 1, by omega⟩
      have further := ih all back fuel (by
        simp only [List.length_cons, List.length_append]
        omega)
      rw [arguments, Reader.acceptSymbol,
        Reader.bind_ok (Reader.accept_stops (without_cons (by decide))), if_neg Bool.false_ne_true]
      dsimp only
      rw [if_pos rfl, Reader.expectSymbol, Reader.bind_ok (Reader.expect_cons _),
        argument_reads reads follows_furtherTokens front (by
          simp only [List.length_cons, List.length_append]
          omega), Reader.bind_ok further, List.flatMap_cons, List.length_append, Nat.add_assoc]
      rfl

theorem arguments_read {arguments : List Expression}
    (all : ∀ argument ∈ arguments, ReadsArgument function (shown argument) argument)
    (numbered : Consecutive first (arguments.flatMap Expression.placeholders))
    (enough : 6 * (commaTokens (arguments.map shown) ++ .symbol .closeParen :: rest).length + 8 ≤
      fuel) :
    Language.arguments fuel function true
        ⟨commaTokens (arguments.map shown) ++ .symbol .closeParen :: rest, none, first⟩ =
      .ok (arguments, ⟨rest, none, first + (arguments.flatMap Expression.placeholders).length⟩) := by
  obtain ⟨fuel, rfl⟩ : ∃ fewer, fuel = fewer + 1 := ⟨fuel - 1, by omega⟩
  cases arguments with
  | nil =>
      change Language.arguments (fuel + 1) function true ⟨.symbol .closeParen :: rest, none, first⟩ = _
      rw [Language.arguments, Reader.acceptSymbol, Reader.bind_ok (Reader.accept_cons _)]
      rfl
  | cons argument others =>
      obtain ⟨reads, all⟩ := List.forall_mem_cons.mp all
      rw [List.flatMap_cons] at numbered
      obtain ⟨front, back⟩ := consecutive_append.mp numbered
      have form : commaTokens ((argument :: others).map shown) ++ .symbol .closeParen :: rest =
          shown argument ++ (furtherTokens shown others ++ .symbol .closeParen :: rest) := by
        simp [commaTokens, furtherTokens, List.flatMap_map]
      rw [form] at enough ⊢
      rw [List.length_append] at enough
      have further := furtherArguments_read all back (show
        6 * (furtherTokens shown others ++ .symbol .closeParen :: rest).length + 7 ≤ fuel by omega)
      rw [Language.arguments, Reader.acceptSymbol, Reader.bind_ok (Reader.accept_stops reads.open),
        if_neg Bool.false_ne_true]
      dsimp only
      rw [if_neg (by decide), argument_reads reads follows_furtherTokens front (by
          rw [List.length_append]
          omega), Reader.bind_ok further, List.flatMap_cons, List.length_append, Nat.add_assoc]
      rfl

theorem tokensIn_call {arguments : List Expression} :
    tokensIn (Expression.call function arguments).marks =
      .identifier function :: .symbol .openParen ::
        (commaTokens (arguments.map fun argument => tokensIn argument.marks) ++
          [.symbol .closeParen]) := by
  rw [Expression.marks, tokensIn_bare, tokensIn_parenthesized, tokensIn_separated,
    Expression.marksOfList_eq, List.map_map]
  rfl

theorem call_reads {arguments : List Expression}
    (all : ∀ argument ∈ arguments, ReadsArgument function (shown argument) argument)
    (spelled : Text.upperCase function = function) :
    ReadsAtom (.identifier function :: .symbol .openParen ::
      (commaTokens (arguments.map shown) ++ [.symbol .closeParen])) (.call function arguments) := by
  intro floor fuel first rest _ _ numbered enough
  obtain ⟨fuel, rfl⟩ : ∃ fewer, fuel = fewer + 2 := ⟨fuel - 2, by omega⟩
  rw [Expression.placeholders_call] at numbered ⊢
  rw [List.cons_append, List.cons_append, List.append_assoc, List.singleton_append] at enough ⊢
  simp only [List.length_cons] at enough
  have read := arguments_read all numbered (show
    6 * (commaTokens (arguments.map shown) ++ .symbol .closeParen :: rest).length + 8 ≤ fuel by omega)
  rw [signed_atom rfl, atom, Reader.bind_ok (Reader.next_cons _)]
  dsimp only
  rw [Reader.acceptSymbol, Reader.bind_ok (Reader.accept_cons _), if_pos rfl, spelled,
    Reader.bind_ok read]
  rfl

end Arguments

/-! ## Operators and tests -/

theorem guarded_reads {place : Nat}
    (reads : ReadsOperand (tokensIn operand.marks) operand operand.precedence operand.edge)
    (within : operand.precedence ≤ place ∨ edge ≤ operand.edge) :
    ReadsOperand (tokensIn (operand.guarded operand.marks place)) operand (place + 1) edge := by
  rw [Expression.guarded]
  split
  · rw [tokensIn_parenthesized]
    exact reads.parenthesized.asOperand
  · rename_i tight
    intro floor fuel first rest small loose follows
    exact reads small (by omega) (follows.mono (within.resolve_left tight))

theorem guarded_atom
    (reads : ReadsOperand (tokensIn operand.marks) operand operand.precedence operand.edge)
    (atomic : 5 < operand.precedence → ReadsAtom (tokensIn operand.marks) operand) :
    ReadsAtom (tokensIn (operand.guarded operand.marks 5)) operand := by
  rw [Expression.guarded]
  split
  · rw [tokensIn_parenthesized]
    exact reads.parenthesized
  · rename_i tight
    exact atomic (Nat.lt_of_not_le tight)

theorem not_reads (reads : ReadsOperand tokens operand 3 3) :
    ReadsOperand (.keyword .not :: tokens) (.not operand) 3 3 := by
  intro floor fuel first rest small loose follows numbered enough
  rw [Expression.placeholders_not] at numbered ⊢
  rw [List.cons_append, List.length_cons] at enough
  obtain ⟨fuel, rfl⟩ : ∃ fewer, fuel = fewer + 2 := ⟨fuel - 2, by omega⟩
  have read := reads.finish (show 3 ≤ 9 by decide) (Nat.le_refl 3) (Nat.le_refl 3) follows numbered
    (show 6 * (tokens ++ rest).length + 6 ≤ fuel by omega)
  have whole : signed (fuel + 1) floor ⟨.keyword .not :: tokens ++ rest, none, first⟩ =
      .ok (.not operand, ⟨rest, none, first + operand.placeholders.length⟩) := by
    rw [signed, Reader.bind_ok Reader.glance_eq]
    dsimp only [List.cons_append, List.head?_cons]
    rw [if_pos loose, Reader.bind_ok (Reader.next_cons _), Reader.bind_ok read]
    rfl
  refine ⟨fuel + 1, ?_, ?_⟩
  · rw [List.length_append] at enough
    omega
  · rw [Language.expression, Reader.bind_ok whole, Reader.bind_ok (tests_stops follows.untested)]

theorem binary_reads {others : List Token} {bound : Nat}
    (leading : ReadsOperand tokens left operator.precedence bound)
    (within : operator.precedence < bound)
    (trailing : ReadsOperand others right (operator.precedence + 1) (operator.precedence + 1)) :
    ReadsOperand (tokens ++ operator.token :: others) (.binary operator left right)
      operator.precedence (operator.precedence + 1) := by
  intro floor fuel first rest small loose follows numbered enough
  have tight : operator.precedence + 1 ≤ 9 := by cases operator <;> decide
  rw [Expression.placeholders_binary] at numbered ⊢
  obtain ⟨front, back⟩ := consecutive_append.mp numbered
  rw [List.append_assoc, List.cons_append] at enough ⊢
  obtain ⟨further, room, read⟩ := leading small loose (follows_operator within) front enough
  rw [List.length_cons] at room
  obtain ⟨further, rfl⟩ : ∃ fewer, further = fewer + 1 := ⟨further - 1, by omega⟩
  have second := trailing.finish tight (Nat.le_refl _) (Nat.le_refl _) follows back
    (show 6 * (others ++ rest).length + 6 ≤ further by omega)
  refine ⟨further, ?_, ?_⟩
  · rw [List.length_append] at room
    omega
  · rw [read, operations, Reader.bind_ok Reader.glance_eq]
    dsimp only [List.head?_cons, Option.bind_some]
    rw [operator?_token]
    dsimp only
    rw [if_pos loose, Reader.bind_ok (Reader.next_cons _), Reader.bind_ok second, List.length_append,
      Nat.add_assoc]

/-- An operand with a test after it. -/
theorem tested_reads {more : List Token} {result : Expression} {further : List Nat}
    (reads : ReadsAtom tokens operand) (starts : startsTest token = true)
    (numbers : result.placeholders = operand.placeholders ++ further)
    (read : ∀ {fuel first rest}, Follows edge rest → Consecutive first further →
      6 * (more ++ rest).length + 9 ≤ fuel →
      test fuel operand token ⟨more ++ rest, none, first⟩ =
        .ok (result, ⟨rest, none, first + further.length⟩)) :
    ReadsOperand (tokens ++ token :: more) result 5 edge := by
  intro floor fuel first rest small loose follows numbered enough
  rw [numbers] at numbered ⊢
  obtain ⟨front, back⟩ := consecutive_append.mp numbered
  rw [List.append_assoc, List.cons_append] at enough ⊢
  obtain ⟨fuel, rfl⟩ : ∃ fewer, fuel = fewer + 2 := ⟨fuel - 2, by omega⟩
  have plain : Stops followsName (token :: (more ++ rest)) := by
    intro other head
    cases head
    cases token with
    | keyword word => rfl
    | number text | string content | identifier name | symbol mark => cases starts
  have operandRead := reads small plain front
    (show 6 * (tokens ++ token :: (more ++ rest)).length + 5 ≤ fuel + 1 by omega)
  rw [List.length_append, List.length_cons] at enough
  have testRead := read follows back (show 6 * (more ++ rest).length + 9 ≤ fuel by omega)
  refine ⟨fuel + 1, ?_, ?_⟩
  · rw [List.length_append] at enough
    omega
  · rw [Language.expression, Reader.bind_ok operandRead, List.length_append, ← Nat.add_assoc]
    have tested : tests (fuel + 1) floor operand
        ⟨token :: (more ++ rest), none, first + operand.placeholders.length⟩ =
        .ok (result, ⟨rest, none, first + operand.placeholders.length + further.length⟩) := by
      rw [tests, if_pos (show floor ≤ testPrecedence from Nat.le_trans loose (by decide)),
        Reader.bind_ok (Reader.takeIf_cons starts)]
      dsimp only
      rw [Reader.bind_ok testRead, tests_stops follows.untested]
    rw [Reader.bind_ok tested]

theorem isNull_reads (reads : ReadsAtom tokens operand) :
    ReadsOperand (tokens ++ [.keyword .is, .keyword .null]) (.isNull operand) 5 edge := by
  have same : (Expression.isNull operand).placeholders = operand.placeholders ++ [] := by
    rw [Expression.placeholders_isNull, List.append_nil]
  refine tested_reads reads rfl same ?_
  intro fuel first rest _ _ enough
  obtain ⟨fuel, rfl⟩ : ∃ fewer, fuel = fewer + 1 := ⟨fuel - 1, by omega⟩
  rw [test, Reader.acceptWord, List.singleton_append,
    Reader.bind_ok (Reader.accept_stops (without_cons (by decide))), Reader.expectWord,
    Reader.bind_ok (Reader.expect_cons _)]
  rfl

theorem isIn_reads {items : List Expression} {shown : Expression → List Token}
    (reads : ReadsAtom tokens operand) (nonempty : items ≠ [])
    (all : ∀ item ∈ items, ReadsOperand (shown item) item 0 0) :
    ReadsOperand (tokens ++ .keyword .«in» :: .symbol .openParen ::
        (commaTokens (items.map shown) ++ [.symbol .closeParen]))
      (.isIn operand items) 5 edge := by
  refine tested_reads reads rfl Expression.placeholders_isIn ?_
  intro fuel first rest _ numbered enough
  obtain ⟨fuel, rfl⟩ : ∃ fewer, fuel = fewer + 2 := ⟨fuel - 2, by omega⟩
  have form : .symbol .openParen ::
        (commaTokens (items.map shown) ++ [.symbol .closeParen]) ++ rest =
      .symbol .openParen :: (commaTokens (items.map shown) ++ .symbol .closeParen :: rest) := by
    simp
  rw [form] at enough ⊢
  rw [List.length_cons] at enough
  have each : ∀ item ∈ items, Reads (commaTokens (items.map shown) ++
      .symbol .closeParen :: rest).length (Language.expression fuel 0) (shown item) item
      item.placeholders (Follows 0) := by
    intro item member first rest follows numbered room
    exact (all item member).finish (Nat.zero_le 9) (Nat.zero_le _) (Nat.zero_le _) follows numbered
      (by omega)
  have read := separated_reads nonempty each (fun _ => follows_comma)
    ⟨follows_closeParen, without_cons (by decide)⟩ numbered (Nat.le_refl _)
  rw [test, membership, Reader.expectSymbol, Reader.bind_ok (Reader.expect_cons _), Reader.bind_ok read,
    Reader.expectSymbol, Reader.bind_ok (Reader.expect_cons _)]
  rfl

theorem between_reads {lowTokens highTokens : List Token} (reads : ReadsAtom tokens operand)
    (lowReads : ReadsAtom lowTokens low) (highReads : ReadsAtom highTokens high) :
    ReadsOperand (tokens ++ .keyword .between :: (lowTokens ++ .keyword .and :: highTokens))
      (.between operand low high) 5 5 := by
  refine tested_reads reads rfl Expression.placeholders_between ?_
  intro fuel first rest follows numbered enough
  obtain ⟨fuel, rfl⟩ : ∃ fewer, fuel = fewer + 2 := ⟨fuel - 2, by omega⟩
  obtain ⟨front, back⟩ := consecutive_append.mp numbered
  rw [List.append_assoc, List.cons_append] at enough ⊢
  have bound : comparisonPrecedence = 5 := rfl
  have lowRead := (@ReadsAtom.asOperand low lowTokens 5 5 lowReads).finish (show 5 ≤ 9 by decide)
    (Nat.le_refl 5) (Nat.le_refl 5)
    (show Follows 5 (.keyword .and :: (highTokens ++ rest)) from
      @follows_operator .and _ _ (by decide)) front
    (show 6 * (lowTokens ++ .keyword .and :: (highTokens ++ rest)).length + 6 ≤ fuel by omega)
  rw [List.length_append, List.length_cons] at enough
  have highRead := (@ReadsAtom.asOperand high highTokens 5 5 highReads).finish
    (show 5 ≤ 9 by decide) (Nat.le_refl 5) (Nat.le_refl 5) follows back
    (show 6 * (highTokens ++ rest).length + 6 ≤ fuel by omega)
  rw [test, range, bound, Reader.bind_ok lowRead, Reader.expectWord, Reader.bind_ok (Reader.expect_cons _),
    Reader.bind_ok highRead, List.length_append, Nat.add_assoc]
  · rfl
  all_goals rintro ⟨⟩

/-! ## Every expression -/

theorem keywords_clause {keyword : Keyword} {marks : List Mark} :
    tokensIn (Mark.clause [keyword] ++ marks) = .keyword keyword :: tokensIn marks := rfl

theorem operator_precedence :
    1 ≤ operator.precedence ∧ operator.precedence ≤ 5 ∧ operator.precedence ≠ 3 := by
  cases operator <;> decide

/-- An order comparison is taken into a BETWEEN before it, and no operator into any other
operand that stands there without parentheses. -/
theorem precedence_lt_edge (setOff : (Expression.binary operator left right).isSetOff = true)
    (tight : operator.precedence ≤ left.precedence) : operator.precedence < left.edge := by
  obtain ⟨-, small, other⟩ := @operator_precedence operator
  cases left with
  | binary _ _ _ => exact Nat.lt_succ_of_le tight
  | not _ => exact Nat.lt_of_le_of_ne tight other
  | between _ _ _ =>
      have loose : operator.precedence ≠ 5 := by
        simpa only [Expression.isSetOff, bne_iff_ne] using setOff
      exact Nat.lt_of_le_of_ne tight loose
  | _ => exact Nat.lt_of_le_of_lt small (by decide : 5 < 10)

theorem leftOperand_reads (setOff : (Expression.binary operator left right).isSetOff = true)
    (reads : ReadsOperand (tokensIn left.marks) left left.precedence left.edge) :
    ReadsOperand (tokensIn (left.guarded left.marks (operator.precedence - 1))) left
      operator.precedence (operator.precedence + 1) := by
  obtain ⟨positive, -, -⟩ := @operator_precedence operator
  have place : operator.precedence - 1 + 1 = operator.precedence := by omega
  have guarded := @guarded_reads left (operator.precedence + 1) (operator.precedence - 1) reads (by
    by_cases tight : operator.precedence ≤ left.precedence
    · exact .inr (precedence_lt_edge setOff tight)
    · exact .inl (by omega))
  rwa [place] at guarded

theorem rightOperand_reads {place : Nat}
    (reads : ReadsOperand (tokensIn right.marks) right right.precedence right.edge) :
    ReadsOperand (tokensIn (right.guarded right.marks place)) right (place + 1) (place + 1) := by
  refine guarded_reads reads ?_
  by_cases loose : right.precedence ≤ place
  · exact .inl loose
  · exact .inr (Nat.le_trans (by omega) Expression.precedence_le_edge)

/-- A readable expression is read back from its tokens if every part of it is set off from
the operators around it. -/
theorem readable_reads (readable : expression.Readable)
    (setOff : ∀ part ∈ expression.parts, part.isSetOff = true) :
    ReadsOperand (tokensIn expression.marks) expression expression.precedence expression.edge ∧
      (5 < expression.precedence → ReadsAtom (tokensIn expression.marks) expression) := by
  induction readable with
  | @field relation name =>
      have reads : ReadsAtom (tokensIn (Expression.field relation name).marks)
          (.field relation name) := by
        cases relation with
        | none => exact field_reads
        | some relation => exact qualifiedField_reads
      exact ⟨reads.asOperand, fun _ => reads⟩
  | literal finite =>
      have reads := literal_reads finite
      exact ⟨reads.asOperand, fun _ => reads⟩
  | parameter => exact ⟨parameter_reads.asOperand, fun _ => parameter_reads⟩
  | @call function arguments starred all ih =>
      rw [Expression.parts, Expression.partsOfList_eq, List.forall_mem_cons] at setOff
      obtain ⟨spelled, setOff⟩ := setOff
      have each : ∀ argument ∈ arguments,
          ReadsArgument function (tokensIn argument.marks) argument := by
        intro argument member
        by_cases star : argument = .star
        · exact .inl ⟨star, by rw [star]; rfl, starred (star ▸ member)⟩
        · have reads := (ih argument member star fun part within =>
            setOff part (List.mem_flatMap.mpr ⟨argument, member, within⟩)).1
          exact .inr ⟨leads_of_readable (all argument member star), reads.loosely⟩
      have reads := call_reads each (beq_iff_eq.mp spelled)
      rw [← tokensIn_call] at reads
      exact ⟨reads.asOperand, fun _ => reads⟩
  | @binary operator left right first second leading trailing =>
      rw [Expression.parts, List.forall_mem_cons, List.forall_mem_append] at setOff
      obtain ⟨own, leftSetOff, rightSetOff⟩ := setOff
      obtain ⟨-, small, -⟩ := @operator_precedence operator
      have reads := binary_reads (leftOperand_reads own (leading leftSetOff).1) (Nat.lt_succ_self _)
        (@rightOperand_reads right operator.precedence (trailing rightSetOff).1)
      rw [Expression.marks, tokensIn_append, tokensIn_space, tokensIn_token, tokensIn_space]
      exact ⟨reads, fun tight => absurd small (Nat.not_le_of_lt tight)⟩
  | @not operand only ih =>
      rw [Expression.parts, List.forall_mem_cons] at setOff
      have reads := not_reads (@rightOperand_reads operand 2 (ih setOff.2).1)
      exact ⟨reads, fun tight => absurd tight (show ¬ 5 < 3 by decide)⟩
  | @isNull operand only ih =>
      rw [Expression.parts, List.forall_mem_cons] at setOff
      obtain ⟨reads, atomic⟩ := ih setOff.2
      rw [Expression.marks, tokensIn_append, tokensIn_clause]
      exact ⟨isNull_reads (guarded_atom reads atomic),
        fun tight => absurd tight (Nat.lt_irrefl 5)⟩
  | @isIn operand items first nonempty all ih others =>
      rw [Expression.parts, Expression.partsOfList_eq, List.forall_mem_cons,
        List.forall_mem_append] at setOff
      obtain ⟨-, operandSetOff, itemsSetOff⟩ := setOff
      obtain ⟨reads, atomic⟩ := ih operandSetOff
      have each : ∀ item ∈ items, ReadsOperand (tokensIn item.marks) item 0 0 :=
        fun item member => (others item member fun part within =>
          itemsSetOff part (List.mem_flatMap.mpr ⟨item, member, within⟩)).1.loosely
      have whole := @isIn_reads operand _ 10 items _ (guarded_atom reads atomic) nonempty each
      rw [Expression.marks, tokensIn_append, keywords_clause, tokensIn_space, tokensIn_parenthesized,
        tokensIn_separated, Expression.marksOfList_eq, List.map_map]
      exact ⟨whole, fun tight => absurd tight (Nat.lt_irrefl 5)⟩
  | @between operand low high first second third ih lowIh highIh =>
      rw [Expression.parts, List.forall_mem_cons, List.forall_mem_append, List.forall_mem_append]
        at setOff
      obtain ⟨-, operandSetOff, lowSetOff, highSetOff⟩ := setOff
      obtain ⟨reads, atomic⟩ := ih operandSetOff
      obtain ⟨lowReads, lowAtomic⟩ := lowIh lowSetOff
      obtain ⟨highReads, highAtomic⟩ := highIh highSetOff
      have whole := between_reads (guarded_atom reads atomic) (guarded_atom lowReads lowAtomic)
        (guarded_atom highReads highAtomic)
      rw [Expression.marks, tokensIn_append, keywords_clause, tokensIn_space, tokensIn_append,
        keywords_clause, tokensIn_space]
      exact ⟨whole, fun tight => absurd tight (Nat.lt_irrefl 5)⟩

theorem ReadsAtom.above {bound : Nat} (reads : ReadsAtom tokens expression) (small : floor ≤ 9) :
    Reads bound (expressionAbove floor) tokens expression expression.placeholders
      (Follows floor) := by
  intro first rest follows numbered _
  have operand : ReadsOperand tokens expression floor floor := reads.asOperand
  exact operand.finish small (Nat.le_refl floor) (Nat.le_refl floor) follows numbered (Nat.le_refl _)

/-- An expression is read back wherever it stands, up to a rest that does not go on with it. -/
theorem expressionAbove_reads {bound : Nat} (faithful : expression.Faithful) (small : floor ≤ 9)
    (loose : floor ≤ expression.precedence) :
    Reads bound (expressionAbove floor) (tokensIn expression.marks) expression
      expression.placeholders (Follows floor) := by
  intro first rest follows numbered _
  have reads := (readable_reads faithful.readable faithful.setOff).1
  exact reads.finish small loose (Nat.le_trans loose Expression.precedence_le_edge) follows numbered
    (Nat.le_refl _)

theorem anyExpression_reads {bound : Nat} (faithful : expression.Faithful) :
    Reads bound anyExpression (tokensIn expression.marks) expression expression.placeholders
      (Follows 0) :=
  expressionAbove_reads faithful (Nat.zero_le 9) (Nat.zero_le _)

end Coffer.Language
