import Coffer.Proofs.Finding
import Coffer.Proofs.Readable

namespace Coffer

/-! # Expressions that are found

Whatever the tokens are, an expression that is found in them can be read: its reals are
finite, its stars stand where COUNT has them, and its names are among the tokens.
-/

theorem Binary64.isFinite_neg (x : Binary64) : x.neg.isFinite = x.isFinite := by
  rw [neg, isFinite, magnitude_ofMagnitude magnitude_lt, isFinite]

namespace Language

variable {allowed : Token → Prop} {expression operand result : Expression}
variable {numbers more start : List Nat}

/-- Whether the names that stand in an expression itself, not in its parts, come from tokens.
The star of all columns does not, and the name of a function is in upper case. -/
def Expression.Named (allowed : Token → Prop) : Expression → Prop
  | .field relation name =>
    (∀ qualifier ∈ relation, allowed (.identifier qualifier)) ∧
      (name = "*" ∨ allowed (.identifier name))
  | .call function _ => ∃ name, allowed (.identifier name) ∧ function = Text.upperCase name
  | _ => True

/-- An expression as it is found where the given tokens are allowed. -/
structure Expression.Found (allowed : Token → Prop) (expression : Expression) : Prop where
  readable : expression.Readable
  named : ∀ part ∈ expression.parts, part.Named allowed

/-- An argument of a call: an expression, or the star of COUNT. -/
def Expression.FoundWithin (allowed : Token → Prop) (function : String)
    (argument : Expression) : Prop :=
  argument.Found allowed ∨ argument = .star ∧ function = "COUNT"

/-- An expression that was found, and the numbers of its placeholders. -/
def Sound (allowed : Token → Prop) : Expression → List Nat → Prop :=
  Bearing Expression.placeholders (Expression.Found allowed)

/-- Arguments that were found, and the numbers of their placeholders. -/
def SoundArguments (allowed : Token → Prop) (function : String) :
    List Expression → List Nat → Prop :=
  Bearing (fun found => found.flatMap Expression.placeholders) fun found =>
    ∀ argument ∈ found, argument.FoundWithin allowed function

/-- An expression that was found after some placeholders that it holds too. -/
def Grown (allowed : Token → Prop) (start : List Nat) (expression : Expression)
    (more : List Nat) : Prop :=
  Sound allowed expression (start ++ more)

namespace Expression.Found

variable {left right low high : Expression} {operator : Operator} {function : String}
variable {arguments items : List Expression}

theorem leaf (readable : expression.Readable) (alone : expression.parts = [expression])
    (named : expression.Named allowed) : expression.Found allowed :=
  ⟨readable, by simpa [alone] using named⟩

theorem literal {value : Literal} (finite : ∀ x, value = .real x → x.isFinite = true) :
    Found allowed (.literal value) :=
  leaf (.literal finite) rfl trivial

theorem parameter {index : Nat} : Found allowed (.parameter index) :=
  leaf .parameter rfl trivial

theorem binary (first : left.Found allowed) (second : right.Found allowed) :
    Found allowed (.binary operator left right) :=
  ⟨.binary first.readable second.readable, List.forall_mem_cons.mpr
    ⟨trivial, List.forall_mem_append.mpr ⟨first.named, second.named⟩⟩⟩

theorem not (only : operand.Found allowed) : Found allowed (.not operand) :=
  ⟨.not only.readable, List.forall_mem_cons.mpr ⟨trivial, only.named⟩⟩

theorem isNull (only : operand.Found allowed) : Found allowed (.isNull operand) :=
  ⟨.isNull only.readable, List.forall_mem_cons.mpr ⟨trivial, only.named⟩⟩

theorem named_partsOfList
    (named : ∀ item ∈ items, ∀ part ∈ item.parts, part.Named allowed) :
    ∀ part ∈ partsOfList items, part.Named allowed := by
  intro part member
  rw [partsOfList_eq] at member
  obtain ⟨item, listed, within⟩ := List.mem_flatMap.mp member
  exact named item listed part within

theorem isIn (first : operand.Found allowed) (nonempty : items ≠ [])
    (all : ∀ item ∈ items, item.Found allowed) : Found allowed (.isIn operand items) :=
  ⟨.isIn first.readable nonempty fun item member => (all item member).readable,
    List.forall_mem_cons.mpr ⟨trivial, List.forall_mem_append.mpr
      ⟨first.named, named_partsOfList fun item member => (all item member).named⟩⟩⟩

theorem between (first : operand.Found allowed) (second : low.Found allowed)
    (third : high.Found allowed) : Found allowed (.between operand low high) :=
  ⟨.between first.readable second.readable third.readable,
    List.forall_mem_cons.mpr ⟨trivial, List.forall_mem_append.mpr
      ⟨first.named, List.forall_mem_append.mpr ⟨second.named, third.named⟩⟩⟩⟩

theorem ne_star (found : expression.Found allowed) : expression ≠ .star := by
  rintro rfl
  exact nomatch found.readable

theorem call (named : Named allowed (.call function arguments))
    (all : ∀ argument ∈ arguments, argument.FoundWithin allowed function) :
    Found allowed (.call function arguments) := by
  refine ⟨.call (fun starred => ?_) fun argument member plain => ?_, List.forall_mem_cons.mpr
    ⟨named, named_partsOfList fun argument member part within => ?_⟩⟩
  · rcases all .star starred with found | ⟨-, counting⟩
    · exact absurd rfl found.ne_star
    · exact counting
  · rcases all argument member with found | ⟨star, -⟩
    · exact found.readable
    · exact absurd star plain
  · rcases all argument member with found | ⟨rfl, -⟩
    · exact found.named part within
    · cases List.mem_singleton.mp within
      trivial

end Expression.Found

/-! ## Literals -/

theorem numberLiteral_finite {negative : Bool} {text : String} {literal : Literal}
    (read : numberLiteral negative text = .ok literal) :
    ∀ x, literal = .real x → x.isFinite = true := by
  rintro x rfl
  simp only [numberLiteral] at read
  split at read
  · split at read <;> cases read
  · split at read
    · split at read
      · cases read
        assumption
      · cases read
    · cases read

/-- A sign makes a literal of a literal. -/
theorem negated_found (found : operand.Found allowed) (read : negated operand = .ok result) :
    result.Found allowed ∧ result.placeholders = operand.placeholders := by
  unfold negated at read
  split at read
  · split at read
    · cases read
    · cases read
      exact ⟨.literal nofun, rfl⟩
  · rename_i number
    cases read
    refine ⟨.literal ?_, rfl⟩
    rintro x ⟨⟩
    cases found.readable with
    | literal finite => exact (Binary64.isFinite_neg number).trans (finite number rfl)
  · cases read

theorem affirmed_found (found : operand.Found allowed) (read : affirmed operand = .ok result) :
    result.Found allowed ∧ result.placeholders = operand.placeholders := by
  unfold affirmed at read
  split at read
  · cases read
    exact ⟨found, rfl⟩
  · cases read
    exact ⟨found, rfl⟩
  · cases read

/-! ## Readers -/

theorem Sound.plain (found : expression.Found allowed) (none : expression.placeholders = []) :
    Sound allowed expression [] :=
  ⟨none.symm, found⟩

theorem qualified_finds {first : String} (permitted : allowed (.identifier first)) :
    Finds allowed (qualified first) (Sound allowed) := by
  have among (name : String) (named : name = "*" ∨ allowed (.identifier name)) :
      Sound allowed (.field (some first) name) [] :=
    .plain (.leaf .field rfl ⟨fun _ same => Option.mem_some_iff.mp same ▸ permitted, named⟩) rfl
  refine (Finds.accept _).seq fun _ _ => .ite (fun _ => ?_) fun _ => ?_
  · refine (Finds.accept _).seq fun _ _ => .ite (fun _ => .pure (among "*" (.inl rfl))) fun _ => ?_
    exact Finds.name.seq fun name permitted => .pure (among name (.inr permitted))
  · exact .pure (.plain (.leaf .field rfl ⟨nofun, .inr permitted⟩) rfl)

theorem placeholder_finds : Finds allowed placeholder (Sound allowed) := by
  intro cursor value after given ran
  cases ran
  exact ⟨given, [cursor.parameters], rfl, rfl, rfl, .parameter⟩

/-- What the readers of expressions find that may call each other as often as the fuel says. -/
structure FindsExpressions (allowed : Token → Prop) (fuel : Nat) : Prop where
  expression : ∀ floor, Finds allowed (Language.expression fuel floor) (Sound allowed)
  signed : ∀ floor, Finds allowed (Language.signed fuel floor) (Sound allowed)
  atom : Finds allowed (Language.atom fuel) (Sound allowed)
  arguments : ∀ function first,
    Finds allowed (Language.arguments fuel function first) (SoundArguments allowed function)
  tests : ∀ floor operand, operand.Found allowed →
    Finds allowed (Language.tests fuel floor operand) (Grown allowed operand.placeholders)
  test : ∀ operand token, operand.Found allowed →
    Finds allowed (Language.test fuel operand token) (Grown allowed operand.placeholders)
  membership : ∀ operand, operand.Found allowed →
    Finds allowed (Language.membership fuel operand) (Grown allowed operand.placeholders)
  range : ∀ operand, operand.Found allowed →
    Finds allowed (Language.range fuel operand) (Grown allowed operand.placeholders)
  operations : ∀ floor operand, operand.Found allowed →
    Finds allowed (Language.operations fuel floor operand) (Grown allowed operand.placeholders)

namespace FindsExpressions

variable {fuel floor : Nat} {token : Token}

/-- An operand that nothing more was read after. -/
theorem unchanged (found : operand.Found allowed) :
    Finds allowed (pure operand) (Grown allowed operand.placeholders) :=
  .pure ⟨List.append_nil _, found⟩

theorem zero : FindsExpressions allowed 0 := by
  constructor <;> intros
  case tests found =>
    rw [Language.tests]
    exact unchanged found
  case operations found =>
    rw [Language.operations]
    exact unchanged found
  all_goals
    simp only [Language.expression, Language.signed, Language.atom, Language.arguments,
      Language.test, Language.membership, Language.range]
    exact .throw

variable (all : FindsExpressions allowed fuel)
include all

theorem expression_succ (floor : Nat) :
    Finds allowed (Language.expression (fuel + 1) floor) (Sound allowed) := by
  rw [Language.expression]
  refine (all.signed floor).bind ?_
  rintro first _ ⟨rfl, found⟩
  refine (all.tests floor first found).bind ?_
  rintro tested more ⟨same, grown⟩
  refine (all.operations floor tested grown).weaken ?_
  rintro result rest ⟨whole, held⟩
  exact ⟨by rw [← List.append_assoc, same, whole], held⟩

theorem signed_succ (floor : Nat) :
    Finds allowed (Language.signed (fuel + 1) floor) (Sound allowed) := by
  have sign {apply : Expression → Except Error Expression}
      (applied : ∀ operand result, operand.Found allowed → apply operand = .ok result →
        result.Found allowed ∧ result.placeholders = operand.placeholders) :
      Finds allowed (Language.expression fuel signPrecedence >>= fun operand => liftM (apply operand))
        (Sound allowed) := by
    refine (all.expression signPrecedence).bind ?_
    rintro operand _ ⟨rfl, found⟩
    refine .lift fun result read => ?_
    obtain ⟨held, same⟩ := applied operand result found read
    exact ⟨by rw [List.append_nil, same], held⟩
  rw [Language.signed]
  refine Finds.glance.seq fun seen _ => ?_
  split
  · refine .ite (fun _ => Finds.next.seq fun _ _ => ?_) fun _ => all.atom
    refine (all.expression 3).map ?_
    rintro operand _ ⟨rfl, found⟩
    exact ⟨Expression.placeholders_not.symm, found.not⟩
  · refine .ite (fun _ => Finds.next.seq fun _ _ => Finds.glance.seq fun seen _ => ?_) fun _ => all.atom
    split
    · refine Finds.next.seq fun _ _ => ?_
      refine (Finds.checked fun _ => numberLiteral_finite).seq fun literal finite => ?_
      exact .pure (.plain (.literal finite) rfl)
    · exact sign fun _ _ => negated_found
  · exact .ite (fun _ => Finds.next.seq fun _ _ => sign fun _ _ => affirmed_found) fun _ => all.atom
  · exact all.atom

theorem atom_succ : Finds allowed (Language.atom (fuel + 1)) (Sound allowed) := by
  rw [Language.atom]
  refine Finds.next.seq fun token permitted => ?_
  split
  · rename_i name
    refine (Finds.accept _).seq fun _ _ => .ite (fun _ => ?_) fun _ => qualified_finds permitted
    refine (all.arguments (Text.upperCase name) true).map ?_
    rintro found _ ⟨rfl, held⟩
    exact ⟨Expression.placeholders_call.symm, .call ⟨name, permitted, rfl⟩ held⟩
  · refine (Finds.checked fun _ => numberLiteral_finite).seq fun literal finite => ?_
    exact .pure (.plain (.literal finite) rfl)
  · refine (all.expression 0).bind ?_
    rintro inner _ ⟨rfl, found⟩
    exact (Finds.expect _).seq fun _ _ => .pure ⟨List.append_nil _, found⟩
  · exact placeholder_finds
  · exact .pure (.plain (.literal (by simp)) rfl)
  · exact .pure (.plain (.literal (by simp)) rfl)
  · exact .pure (.plain (.literal (by simp)) rfl)
  · exact .pure (.plain (.literal (by simp)) rfl)
  · exact .throw

theorem arguments_succ (function : String) (first : Bool) :
    Finds allowed (Language.arguments (fuel + 1) function first)
      (SoundArguments allowed function) := by
  have others (argument : Expression) (held : argument.FoundWithin allowed function) :
      Finds allowed (Language.arguments fuel function false >>= fun rest => pure (argument :: rest))
        fun found more => SoundArguments allowed function found (argument.placeholders ++ more) := by
    refine (all.arguments function false).map ?_
    rintro values _ ⟨rfl, others⟩
    exact ⟨rfl, List.forall_mem_cons.mpr ⟨held, others⟩⟩
  have rest (starred : Bool) (counting : starred = true → function = "COUNT") :
      Finds allowed (do
        let argument ← if starred then pure .star else Language.expression fuel 0
        let rest ← Language.arguments fuel function false
        return argument :: rest) (SoundArguments allowed function) := by
    refine .ite (fun holds => ?_) fun _ => ?_
    · exact .handed (others .star (.inr ⟨rfl, counting holds⟩))
    · refine (all.expression 0).bind ?_
      rintro argument _ ⟨rfl, found⟩
      exact others argument (.inl found)
  have starred : Finds allowed (do
      let starred ← if function = "COUNT" then Reader.acceptSymbol .asterisk else pure false
      let argument ← if starred then pure .star else Language.expression fuel 0
      let rest ← Language.arguments fuel function false
      return argument :: rest) (SoundArguments allowed function) := by
    refine .ite (fun counting => ?_) fun _ => ?_
    · exact (Finds.accept _).seq fun starred _ => rest starred fun _ => counting
    · exact .handed (rest false (by simp))
  rw [Language.arguments]
  refine (Finds.accept _).seq fun _ _ => .ite (fun _ => .pure ⟨rfl, List.forall_mem_nil _⟩) fun _ => ?_
  exact .ite (fun _ => (Finds.expect _).seq fun _ _ => starred) fun _ => starred

theorem tests_succ (floor : Nat) (found : operand.Found allowed) :
    Finds allowed (Language.tests (fuel + 1) floor operand) (Grown allowed operand.placeholders) := by
  rw [Language.tests]
  refine .ite (fun _ => (Finds.takeIf _).seq fun taken _ => ?_) fun _ => unchanged found
  split
  · refine (all.test operand _ found).bind ?_
    rintro tested more ⟨same, held⟩
    refine (all.tests floor tested held).weaken ?_
    rintro result rest whole
    rwa [Grown, ← List.append_assoc, same]
  · exact unchanged found

theorem test_succ (token : Token) (found : operand.Found allowed) :
    Finds allowed (Language.test (fuel + 1) operand token) (Grown allowed operand.placeholders) := by
  have denied {reader : Reader Expression}
      (finds : Finds allowed reader (Grown allowed operand.placeholders)) :
      Finds allowed (reader >>= fun found => pure (.not found))
        (Grown allowed operand.placeholders) :=
    finds.map fun _ _ holds => ⟨holds.1.trans Expression.placeholders_not.symm, holds.2.not⟩
  unfold Language.test
  split
  · refine (Finds.accept _).seq fun denied _ => (Finds.expect _).seq fun _ _ => .pure ?_
    have tested : Grown allowed operand.placeholders (.isNull operand) [] :=
      ⟨(List.append_nil _).trans Expression.placeholders_isNull.symm, found.isNull⟩
    split
    · exact ⟨tested.1.trans Expression.placeholders_not.symm, tested.2.not⟩
    · exact tested
  · refine Finds.next.seq fun second _ => ?_
    split
    · exact denied (all.membership operand found)
    · exact denied (all.range operand found)
    · refine (all.expression comparisonPrecedence).map ?_
      rintro pattern _ ⟨rfl, held⟩
      refine ⟨?_, (found.binary held).not⟩
      rw [Expression.placeholders_not, Expression.placeholders_binary]
    · exact .throw
  · exact all.membership operand found
  · exact all.range operand found

theorem membership_succ (found : operand.Found allowed) :
    Finds allowed (Language.membership (fuel + 1) operand)
      (Grown allowed operand.placeholders) := by
  rw [Language.membership]
  refine (Finds.expect _).seq fun _ _ => (all.expression 0).separated.bind ?_
  rintro items _ ⟨rfl, nonempty, held⟩
  refine (Finds.expect _).seq fun _ _ => .pure ⟨?_, found.isIn nonempty held⟩
  rw [List.append_nil, Expression.placeholders_isIn]

theorem range_succ (found : operand.Found allowed) :
    Finds allowed (Language.range (fuel + 1) operand) (Grown allowed operand.placeholders) := by
  rw [Language.range]
  refine (all.expression comparisonPrecedence).bind ?_
  rintro low _ ⟨rfl, lower⟩
  refine (Finds.expect _).seq fun _ _ => (all.expression comparisonPrecedence).map ?_
  rintro high _ ⟨rfl, upper⟩
  exact ⟨Expression.placeholders_between.symm, found.between lower upper⟩

theorem operations_succ (floor : Nat) (found : operand.Found allowed) :
    Finds allowed (Language.operations (fuel + 1) floor operand)
      (Grown allowed operand.placeholders) := by
  rw [Language.operations]
  refine Finds.glance.seq fun seen _ => ?_
  split
  · rename_i operator _
    refine .ite (fun _ => Finds.next.seq fun _ _ => ?_) fun _ => unchanged found
    refine (all.expression (operator.precedence + 1)).bind ?_
    rintro right _ ⟨rfl, held⟩
    refine (all.operations floor (.binary operator operand right) (found.binary held)).weaken ?_
    rintro result rest whole
    rwa [Grown, ← List.append_assoc, ← Expression.placeholders_binary]
  · exact unchanged found

theorem succ : FindsExpressions allowed (fuel + 1) where
  expression := all.expression_succ
  signed := all.signed_succ
  atom := all.atom_succ
  arguments := all.arguments_succ
  tests floor _ found := all.tests_succ floor found
  test _ token found := all.test_succ token found
  membership _ found := all.membership_succ found
  range _ found := all.range_succ found
  operations floor _ found := all.operations_succ floor found

end FindsExpressions

theorem findsExpressions (allowed : Token → Prop) (fuel : Nat) : FindsExpressions allowed fuel := by
  induction fuel with
  | zero => exact .zero
  | succ fuel ih => exact ih.succ

theorem expressionAbove_finds (floor : Nat) :
    Finds allowed (expressionAbove floor) (Sound allowed) :=
  fun cursor _ _ given ran =>
    (findsExpressions allowed (6 * cursor.tokens.length + 6)).expression floor given ran

theorem anyExpression_finds : Finds allowed anyExpression (Sound allowed) :=
  expressionAbove_finds 0

end Language

end Coffer
