import Coffer.Proofs.ExpressionReading
import Coffer.Proofs.Legible
import Coffer.Proofs.Spacing

namespace Coffer.Language

/-! # Expressions with parentheses around every operand

With parentheses around its operands, any expression can be written. Between them an operand is
read by itself, whatever it is, so the operators around it do not matter, and those in it do not
either.
-/

variable {expression : Expression} {expressions : List Expression} {marks : List Mark}

namespace Expression

mutual
/-- The marks of an expression in which every operand stands in parentheses. -/
def enclosedMarks : Expression → List Mark
  | .field relation name => Expression.marks (.field relation name)
  | .literal value => value.marks
  | .parameter _ => [.symbol .question]
  | .call function arguments =>
    .bare function :: Mark.parenthesized (Mark.separated (enclosedMarksOfList arguments))
  | .star => [.symbol .asterisk]
  | .binary operator left right =>
    Mark.parenthesized left.enclosedMarks ++
      (.space :: .token operator.token :: .space :: Mark.parenthesized right.enclosedMarks)
  | .not operand => .word .not :: .space :: Mark.parenthesized operand.enclosedMarks
  | .isNull operand => Mark.parenthesized operand.enclosedMarks ++ Mark.clause [.is, .null]
  | .isIn operand items =>
    Mark.parenthesized operand.enclosedMarks ++
      (Mark.clause [.«in»] ++ (.space :: Mark.parenthesized
        (Mark.separated ((enclosedMarksOfList items).map Mark.parenthesized))))
  | .between operand low high =>
    Mark.parenthesized operand.enclosedMarks ++
      (Mark.clause [.between] ++ (.space :: (Mark.parenthesized low.enclosedMarks ++
        (Mark.clause [.and] ++ (.space :: Mark.parenthesized high.enclosedMarks)))))

def enclosedMarksOfList : List Expression → List (List Mark)
  | [] => []
  | first :: rest => first.enclosedMarks :: enclosedMarksOfList rest
end

/-- The text of an expression with parentheses around every operand. -/
def enclosed (expression : Expression) : String :=
  writtenMarks expression.enclosedMarks

theorem enclosedMarksOfList_eq : enclosedMarksOfList expressions = expressions.map enclosedMarks := by
  induction expressions with
  | nil => rfl
  | cons first others ih => rw [enclosedMarksOfList, ih, List.map_cons]

/-- The expressions of any depth that can be written: names are in ASCII and reals are finite, a
function goes by a word in upper case that is no keyword, and a list after IN is not empty. -/
inductive Expressible : Expression → Prop where
  | field {relation : Option String} {name : String}
      (qualified : ∀ qualifier ∈ relation, (Token.identifier qualifier).isAscii = true)
      (named : (Token.identifier name).isAscii = true) : Expressible (.field relation name)
  | literal {value : Literal} (finite : ∀ x, value = .real x → x.isFinite = true) :
      Expressible (.literal value)
  | parameter {index : Nat} : Expressible (.parameter index)
  | call {function : String} {arguments : List Expression} (word : isPlainWord function = true)
      (spelled : Text.upperCase function = function)
      (all : ∀ argument ∈ arguments, Expressible argument) : Expressible (.call function arguments)
  | binary {operator : Operator} {left right : Expression} (first : Expressible left)
      (second : Expressible right) : Expressible (.binary operator left right)
  | not {operand : Expression} (only : Expressible operand) : Expressible (.not operand)
  | isNull {operand : Expression} (only : Expressible operand) : Expressible (.isNull operand)
  | isIn {operand : Expression} {items : List Expression} (first : Expressible operand)
      (nonempty : items ≠ []) (all : ∀ item ∈ items, Expressible item) :
      Expressible (.isIn operand items)
  | between {operand low high : Expression} (first : Expressible operand)
      (second : Expressible low) (third : Expressible high) : Expressible (.between operand low high)

/-! ## The text -/

theorem spaced_enclosed (expression : Expression) : Spaced expression.enclosedMarks := by
  induction expression using Expression.induct with
  | field relation name => exact spaced_expression (.field relation name)
  | literal value => exact spaced_literal value
  | parameter index => exact .single trivial
  | star => exact .single trivial
  | call function arguments ih =>
      rw [enclosedMarks, enclosedMarksOfList_eq]
      exact .before trivial (.parenthesized (.listed ih))
  | binary operator left right first second =>
      have plain : (Mark.token operator.token).IsPlain := by cases operator <;> trivial
      exact (Clause.parenthesized first).toSpaced.append
        (.space (.before plain (.space (Clause.parenthesized second).toSpaced)))
  | not operand ih => exact .before trivial (.space (Clause.parenthesized ih).toSpaced)
  | isNull operand ih => exact (Clause.parenthesized ih).toSpaced.append .keywords
  | isIn operand items ih others =>
      rw [enclosedMarks, enclosedMarksOfList_eq, List.map_map]
      have listed : Spaced (Mark.separated (items.map (Mark.parenthesized ∘ enclosedMarks))) :=
        .listed fun item member => (Clause.parenthesized (others item member)).toSpaced
      exact (Clause.parenthesized ih).toSpaced.append
        (.introduced (Clause.parenthesized listed).toSpaced)
  | between operand low high ih lowIh highIh =>
      exact (Clause.parenthesized ih).toSpaced.append
        (.introduced ((Clause.parenthesized lowIh).toSpaced.append
          (.introduced (Clause.parenthesized highIh).toSpaced)))

theorem Expressible.legible (expressible : expression.Expressible) :
    Legible expression.enclosedMarks := by
  induction expressible with
  | @field relation name qualified named =>
      cases relation with
      | none => simpa [enclosedMarks, Expression.marks] using isLegible_name (.inr named)
      | some relation =>
          have qualifier := isLegible_name (.inr (qualified relation rfl))
          simpa [enclosedMarks, Expression.marks] using ⟨qualifier, isLegible_name (.inr named)⟩
  | literal finite => exact legible_literal finite
  | parameter => simp [enclosedMarks]
  | call word spelled all ih =>
      rw [enclosedMarks, enclosedMarksOfList_eq, legible_cons, legible_parenthesized,
        legible_separated]
      exact ⟨word, ih⟩
  | binary first second left right => simpa [enclosedMarks] using ⟨left, right⟩
  | not only ih => simpa [enclosedMarks] using ih
  | isNull only ih => simpa [enclosedMarks] using ih
  | isIn first nonempty all ih others =>
      simpa [enclosedMarks, enclosedMarksOfList_eq, legible_separated] using ⟨ih, others⟩
  | between first second third ih lowIh highIh => simpa [enclosedMarks] using ⟨ih, lowIh, highIh⟩

/-! ## Reading it -/

theorem leads_parenthesized : Leads (tokensIn (Mark.parenthesized marks)) := by
  rw [tokensIn_parenthesized]
  exact ⟨_, _, rfl, rfl⟩

theorem Expressible.leads (expressible : expression.Expressible) :
    Leads (tokensIn expression.enclosedMarks) := by
  cases expressible with
  | field => exact leads_of_readable .field
  | literal finite => exact leads_of_readable (.literal finite)
  | parameter => exact ⟨_, _, rfl, rfl⟩
  | call => exact ⟨_, _, rfl, rfl⟩
  | not => exact ⟨_, _, rfl, rfl⟩
  | binary | isNull | isIn | between =>
      rw [enclosedMarks, tokensIn_append]
      exact leads_parenthesized.append

theorem atom_parenthesized (reads : ReadsOperand (tokensIn marks) expression 0 0) :
    ReadsAtom (tokensIn (Mark.parenthesized marks)) expression := by
  rw [tokensIn_parenthesized]
  exact reads.parenthesized

/-- Each operand is read between its parentheses, whatever is in it and around it. -/
theorem Expressible.reads (expressible : expression.Expressible) :
    ReadsOperand (tokensIn expression.enclosedMarks) expression 0 0 := by
  induction expressible with
  | @field relation name =>
      cases relation with
      | none => exact field_reads.asOperand
      | some relation => exact qualifiedField_reads.asOperand
  | literal finite => exact (literal_reads finite).asOperand
  | parameter => exact parameter_reads.asOperand
  | @call function arguments word spelled all ih =>
      have each : ∀ argument ∈ arguments,
          ReadsArgument function (tokensIn argument.enclosedMarks) argument :=
        fun argument member => .inr ⟨(all argument member).leads, ih argument member⟩
      have reads := call_reads each spelled
      rw [enclosedMarks, enclosedMarksOfList_eq, tokensIn_bare, tokensIn_parenthesized,
        tokensIn_separated, List.map_map]
      exact reads.asOperand
  | @binary operator left right first second leading trailing =>
      have reads := @binary_reads left right operator _ _ (operator.precedence + 1)
        (atom_parenthesized leading).asOperand (Nat.lt_succ_self _)
        (atom_parenthesized trailing).asOperand
      rw [enclosedMarks, tokensIn_append, tokensIn_space, tokensIn_token, tokensIn_space]
      exact reads.loosely
  | not only ih => exact (not_reads (atom_parenthesized ih).asOperand).loosely
  | @isNull operand only ih =>
      have reads := @isNull_reads operand _ 0 (atom_parenthesized ih)
      rw [enclosedMarks, tokensIn_append, tokensIn_clause]
      exact reads.loosely
  | @isIn operand items first nonempty all ih others =>
      have each : ∀ item ∈ items,
          ReadsOperand (tokensIn (Mark.parenthesized item.enclosedMarks)) item 0 0 :=
        fun item member => (atom_parenthesized (others item member)).asOperand
      have reads := @isIn_reads operand _ 0 items _ (atom_parenthesized ih) nonempty each
      rw [enclosedMarks, tokensIn_append, keywords_clause, tokensIn_space,
        @tokensIn_parenthesized (Mark.separated _), tokensIn_separated, enclosedMarksOfList_eq,
        List.map_map, List.map_map]
      exact reads.loosely
  | between first second third ih lowIh highIh =>
      have reads := between_reads (atom_parenthesized ih) (atom_parenthesized lowIh)
        (atom_parenthesized highIh)
      rw [enclosedMarks, tokensIn_append, keywords_clause, tokensIn_space, tokensIn_append,
        keywords_clause, tokensIn_space]
      exact reads.loosely

end Expression

/-- Every expression is read from the text in which each of its operands stands in parentheses. -/
theorem parseExpression_enclosed (expressible : expression.Expressible)
    (numbered : Consecutive 0 expression.placeholders) :
    parseExpression expression.enclosed = .ok expression := by
  have tokens : tokensOf expression.enclosed = ⟨tokensIn expression.enclosedMarks, none⟩ :=
    tokensOf_writtenMarks (Expression.spaced_enclosed expression) expressible.legible
  have ends : Follows 0 [] := ⟨nofun, nofun, nofun⟩
  have read : anyExpression (.ofText expression.enclosed) =
      .ok (expression, ⟨[], none, expression.placeholders.length⟩) := by
    have finished := expressible.reads.finish (Nat.zero_le 9) (Nat.le_refl 0) (Nat.le_refl 0) ends
      numbered (Nat.le_refl _)
    rw [List.append_nil, Nat.zero_add] at finished
    rw [Cursor.ofText, tokens]
    exact finished
  have whole : (do
      let found ← anyExpression
      Reader.ended
      return found : Reader Expression) (.ofText expression.enclosed) =
      .ok (expression, ⟨[], none, expression.placeholders.length⟩) := by
    rw [Reader.bind_ok read]
    rfl
  change Prod.fst <$> (_ : Except Error (Expression × Cursor)) = _
  rw [whole]
  rfl

theorem parseExpression_enclosed_range :
    parseExpression "((a) BETWEEN (?) AND (-1)) < (NOT (F(b, ?)))" =
      .ok (.binary .less
        (.between (.field none "a") (.parameter 0) (.literal (.integer (-1))))
        (.not (.call "F" [.field none "b", .parameter 1]))) := by
  have range : Expression.Expressible
      (.between (.field none "a") (.parameter 0) (.literal (.integer (-1)))) :=
    .between (.field nofun (by decide)) .parameter (.literal nofun)
  have call : Expression.Expressible (.call "F" [.field none "b", .parameter 1]) := by
    refine .call (by decide +kernel) (by decide +kernel) (List.forall_mem_cons.mpr ⟨?_, ?_⟩)
    · exact .field nofun (by decide)
    · exact List.forall_mem_singleton.mpr .parameter
  have text : "((a) BETWEEN (?) AND (-1)) < (NOT (F(b, ?)))" = Expression.enclosed
      (.binary .less (.between (.field none "a") (.parameter 0) (.literal (.integer (-1))))
        (.not (.call "F" [.field none "b", .parameter 1]))) := by decide +kernel
  rw [text]
  exact parseExpression_enclosed (.binary range (.not call)) rfl

end Coffer.Language
