import Coffer.Proofs.Legible
import Coffer.Proofs.Result
import Coffer.Query.Planning

namespace Coffer

/-! # Expressions of planned queries

What a query asks for is planned only where it stands for columns, constants and aggregates.
All that is planned reads back as it is written. The one operand that is not looked at is
what is matched against a pattern that is null.
-/

open Coffer.Language (Expression Literal Select SelectItem)

namespace Language.Expression

variable {expression other operand left right : Expression} {arguments others : List Expression}
variable {function : String} {operator : Operator}

/-- Whether an expression has no parts but itself. -/
def isLeaf : Expression → Bool
  | .field .. | .literal _ | .parameter _ | .star => true
  | _ => false

/-- Whether an expression is a call on expressions without parts. -/
def isPlainCall : Expression → Bool
  | .call _ arguments => arguments.all isLeaf
  | _ => false

/-- An operand all parts of which read back as they are written, and that needs no
parentheses. -/
structure Settled (expression : Expression) : Prop where
  closed : expression.precedence = 10
  intact : expression.Intact

theorem settled_of_isLeaf (leaf : expression.isLeaf = true) : expression.Settled := by
  cases expression with
  | field | literal | parameter | star => exact ⟨rfl, List.forall_mem_singleton.mpr rfl⟩
  | _ => cases leaf

theorem isPlainWord_of_aggregate (named : aggregateNames.contains function = true) :
    isPlainWord function = true := by
  have words : ∀ name ∈ aggregateNames, isPlainWord name = true := by decide
  exact words function (List.contains_iff_mem.mp named)

theorem settled_of_isPlainCall (aggregate : expression.isAggregateCall = true)
    (plain : expression.isPlainCall = true) : expression.Settled := by
  cases expression with
  | call function arguments =>
      refine ⟨rfl, forall_parts_call.mpr ⟨isPlainWord_of_aggregate aggregate, ?_⟩⟩
      exact fun argument member =>
        (settled_of_isLeaf (List.all_eq_true.mp plain argument member)).intact
  | _ => cases plain

/-- No range is on the left of an order comparison whose left side needs no parentheses. -/
theorem isIntact_binary (loose : operator.precedence ≠ 5 ∨ left.precedence = 10) :
    isIntact (.binary operator left right) = true := by
  cases left with
  | between operand low high => exact bne_iff_ne.mpr (loose.resolve_right nofun)
  | _ => rfl

theorem isLeaf_of_same (same : other.same expression = true) (leaf : other.isLeaf = true) :
    expression.isLeaf = true := by
  cases other <;> cases expression <;> simp_all [Expression.same, isLeaf]

theorem isPlainCall_of_same (same : other.same expression = true)
    (plain : other.isPlainCall = true) : expression.isPlainCall = true := by
  have leaves (first second : List Expression) (same : sameList first second = true)
      (plain : first.all isLeaf = true) : second.all isLeaf = true := by
    induction first generalizing second with
    | nil =>
        cases second with
        | nil => rfl
        | cons head rest => cases same
    | cons head rest ih =>
        cases second with
        | nil => rfl
        | cons head' rest' =>
            rw [sameList, Bool.and_eq_true] at same
            rw [List.all_cons, Bool.and_eq_true] at plain ⊢
            exact ⟨isLeaf_of_same same.1 plain.1, ih rest' same.2 plain.2⟩
  cases other with
  | call function arguments =>
      cases expression with
      | call function' arguments' =>
          rw [Expression.same, Bool.and_eq_true] at same
          exact leaves arguments arguments' same.2 plain
      | _ => cases same
  | _ => cases plain

/-- Whether an expression stands for a null, given the values of the placeholders. -/
def DenotesNull (parameters : List Value) : Expression → Prop
  | .literal value => value = .null
  | .parameter index => parameters[index]? = some .null
  | _ => False

/-- Whether what is matched in an expression against a null reads back as it is written. -/
def MatchesIntact (parameters : List Value) (expression : Expression) : Prop :=
  ∀ part ∈ expression.parts, ∀ matched pattern, part = .binary .like matched pattern →
    pattern.DenotesNull parameters → matched.Intact

end Language.Expression

/-! ## Conditions -/

section Conditions

variable {operand : Expression → Except Error Operand} {expression whole left right : Expression}
variable {predicate : Predicate} {property : Expression → Prop}

/-- What holds of all parts of a condition that is read, since it holds of the operands that are
read, of what is matched with a null, and of what stands between them. -/
structure Sustained (operand : Expression → Except Error Operand) (whole : Expression)
    (property : Expression → Prop) : Prop where
  read : ∀ part ∈ whole.parts, ∀ found, operand part = .ok found →
    ∀ inner ∈ part.parts, property inner
  matched : ∀ left right, .binary .like left right ∈ whole.parts →
    operand right = .ok (.constant .null) → ∀ inner ∈ left.parts, property inner
  binary : ∀ operator left right, left ∈ whole.parts →
    operator.precedence ≠ 5 ∨ (∃ found, operand left = .ok found) →
    property (.binary operator left right)
  literal : ∀ value, property (.literal value)
  not : ∀ inner, property (.not inner)
  isNull : ∀ inner, property (.isNull inner)
  isIn : ∀ inner items, property (.isIn inner items)
  between : ∀ inner low high, property (.between inner low high)

theorem Sustained.comparison {operator : Language.Operator} {comparison : Comparison}
    (sustained : Sustained operand whole property) (first : left ∈ whole.parts)
    (second : right ∈ whole.parts)
    (read : Predicate.ofComparison operand comparison left right = .ok predicate) :
    ∀ part ∈ (Expression.binary operator left right).parts, property part := by
  rw [Predicate.ofComparison, bind_eq_ok_iff] at read
  obtain ⟨found, leftRead, read⟩ := read
  obtain ⟨other, rightRead, -⟩ := bind_eq_ok_iff.mp read
  exact Expression.forall_parts_binary.mpr
    ⟨sustained.binary operator left right first (.inr ⟨found, leftRead⟩),
      sustained.read left first found leftRead, sustained.read right second other rightRead⟩

/-- The pattern is read first. Unless it is null, what is matched with it is read too. -/
theorem Sustained.pattern (sustained : Sustained operand whole property)
    (inside : .binary .like left right ∈ whole.parts) (first : left ∈ whole.parts)
    (second : right ∈ whole.parts)
    (read : Predicate.ofPattern operand left right = .ok predicate) :
    ∀ part ∈ (Expression.binary .like left right).parts, property part := by
  rw [Predicate.ofPattern, bind_eq_ok_iff] at read
  obtain ⟨pattern, rightRead, read⟩ := read
  have matched : ∀ part ∈ left.parts, property part := by
    split at read
    · exact sustained.matched left right inside rightRead
    · obtain ⟨found, leftRead, -⟩ := bind_eq_ok_iff.mp read
      exact sustained.read left first found leftRead
    · cases read
  exact Expression.forall_parts_binary.mpr
    ⟨sustained.binary .like left right first (.inl (by decide)), matched,
      sustained.read right second pattern rightRead⟩

theorem Sustained.reading (sustained : Sustained operand whole property)
    (inside : ∀ part ∈ expression.parts, part ∈ whole.parts)
    (read : Predicate.reading operand expression = .ok predicate) :
    ∀ part ∈ expression.parts, property part := by
  have itself := inside expression expression.mem_parts
  induction expression using Expression.induct generalizing predicate with
  | field | parameter | call =>
      obtain ⟨found, read, -⟩ := map_eq_ok_iff.mp read
      exact sustained.read _ itself found read
  | literal value => exact List.forall_mem_singleton.mpr (sustained.literal value)
  | star => cases read
  | binary operator left right first second =>
      obtain ⟨-, inLeft, inRight⟩ := Expression.forall_parts_binary.mp inside
      have atLeft := inLeft left left.mem_parts
      have atRight := inRight right right.mem_parts
      have both {build : Predicate → Predicate → Predicate}
          (loose : operator.precedence ≠ 5)
          (read : (do
            let one ← Predicate.reading operand left
            let other ← Predicate.reading operand right
            return build one other) = .ok predicate) :
          ∀ part ∈ (Expression.binary operator left right).parts, property part := by
        obtain ⟨one, leftRead, read⟩ := bind_eq_ok_iff.mp read
        obtain ⟨other, rightRead, -⟩ := bind_eq_ok_iff.mp read
        exact Expression.forall_parts_binary.mpr
          ⟨sustained.binary operator left right atLeft (.inl loose),
            first inLeft leftRead atLeft, second inRight rightRead atRight⟩
      cases operator with
      | and => exact both (by decide) read
      | or => exact both (by decide) read
      | like => exact sustained.pattern itself atLeft atRight read
      | _ => exact sustained.comparison atLeft atRight read
  | not inner ih =>
      obtain ⟨-, within⟩ := Expression.forall_parts_not.mp inside
      obtain ⟨found, read, -⟩ := bind_eq_ok_iff.mp read
      exact Expression.forall_parts_not.mpr
        ⟨sustained.not inner, ih within read (within inner inner.mem_parts)⟩
  | isNull inner ih =>
      obtain ⟨-, within⟩ := Expression.forall_parts_isNull.mp inside
      obtain ⟨found, read, -⟩ := bind_eq_ok_iff.mp read
      exact Expression.forall_parts_isNull.mpr ⟨sustained.isNull inner,
        sustained.read inner (within inner inner.mem_parts) found read⟩
  | isIn inner items ih others =>
      obtain ⟨-, within, among⟩ := Expression.forall_parts_isIn.mp inside
      obtain ⟨found, read, rest⟩ := bind_eq_ok_iff.mp read
      obtain ⟨listed, itemsRead, -⟩ := bind_eq_ok_iff.mp rest
      refine Expression.forall_parts_isIn.mpr ⟨sustained.isIn inner items,
        sustained.read inner (within inner inner.mem_parts) found read, fun item member => ?_⟩
      obtain ⟨value, itemRead⟩ := mapM_eq_ok itemsRead item member
      exact sustained.read item (among item member item item.mem_parts) value itemRead
  | between inner low high ih lowIh highIh =>
      obtain ⟨-, within, lower, upper⟩ := Expression.forall_parts_between.mp inside
      obtain ⟨found, read, rest⟩ := bind_eq_ok_iff.mp read
      obtain ⟨least, lowRead, rest⟩ := bind_eq_ok_iff.mp rest
      obtain ⟨most, highRead, -⟩ := bind_eq_ok_iff.mp rest
      exact Expression.forall_parts_between.mpr ⟨sustained.between inner low high,
        sustained.read inner (within inner inner.mem_parts) found read,
        sustained.read low (lower low low.mem_parts) least lowRead,
        sustained.read high (upper high high.mem_parts) most highRead⟩

/-- What is known of the parts of a condition, given how its operands are read: those that
are read are settled, and what is matched against a null reads back as it is written. -/
structure Operable (operand : Expression → Except Error Operand) (part : Expression) : Prop where
  settled : ∀ found, operand part = .ok found → part.Settled
  matched : ∀ left right, part = .binary .like left right →
    operand right = .ok (.constant .null) → left.Intact

theorem reading_intact (operable : ∀ part ∈ expression.parts, Operable operand part)
    (read : Predicate.reading operand expression = .ok predicate) : expression.Intact := by
  have sustained : Sustained operand expression (fun part => part.isIntact = true) := {
    read := fun part member found read => ((operable part member).settled found read).intact
    matched := fun left right member => (operable _ member).matched left right rfl
    binary := fun operator left right member loose => by
      refine Expression.isIntact_binary (loose.imp_right fun ⟨found, read⟩ => ?_)
      exact ((operable left member).settled found read).closed
    literal := fun _ => rfl
    not := fun _ => rfl
    isNull := fun _ => rfl
    isIn := fun _ _ => rfl
    between := fun _ _ _ => rfl }
  exact sustained.reading (fun _ member => member) read

end Conditions

/-! ## Operands -/

section Operands

variable {context : PlanContext} {scope : Scope} {expression : Expression} {found : Operand}
variable {predicate : Predicate}

theorem resolve_call_eq_ok {function : String} {arguments : List Expression} {position : Nat}
    (resolved : scope.resolve (.call function arguments) = .ok position) :
    Language.aggregateNames.contains function = true ∧ scope.aggregates ≠ [] := by
  simp only [Scope.resolve] at resolved
  split at resolved
  · rename_i named
    refine ⟨named, fun none => ?_⟩
    rw [none] at resolved
    cases resolved
  · cases resolved

/-- An operand is an expression without parts, unless it is an aggregate that the scope has. -/
theorem operand_cases (planned : context.operand scope expression = .ok found) :
    expression.isLeaf = true ∨
      expression.isAggregateCall = true ∧ scope.aggregates ≠ [] := by
  cases expression with
  | field | literal | parameter => exact .inl rfl
  | call function arguments =>
      obtain ⟨position, resolved, -⟩ := map_eq_ok_iff.mp planned
      exact .inr (resolve_call_eq_ok resolved)
  | _ => cases planned

/-- Whether the aggregates in an expression that a scope may have are called on expressions
without parts. -/
def Scope.Aggregates (scope : Scope) (expression : Expression) : Prop :=
  ∀ part ∈ expression.parts, part.isAggregateCall = true → scope.aggregates ≠ [] →
    part.isPlainCall = true

theorem Scope.aggregates_of_nil (none : scope.aggregates = []) : scope.Aggregates expression :=
  fun _ _ _ some => absurd none some

theorem Scope.Aggregates.settled {part : Expression} (plain : scope.Aggregates expression)
    (member : part ∈ expression.parts) (planned : context.operand scope part = .ok found) :
    part.Settled := by
  rcases operand_cases planned with leaf | ⟨aggregate, some⟩
  · exact Expression.settled_of_isLeaf leaf
  · exact Expression.settled_of_isPlainCall aggregate (plain part member aggregate some)

theorem operand_intact (plain : scope.Aggregates expression)
    (planned : context.operand scope expression = .ok found) : expression.Intact :=
  (plain.settled expression.mem_parts planned).intact

theorem denotesNull_of_operand
    (planned : context.operand scope expression = .ok (.constant .null)) :
    expression.DenotesNull context.parameters := by
  cases expression with
  | literal value =>
      cases value <;> first | rfl | cases planned
  | parameter index =>
      simp only [PlanContext.operand, Operand.ofExpression] at planned
      split at planned
      · rename_i value given
        cases planned
        exact given
      · cases planned
  | field | call =>
      obtain ⟨position, -, same⟩ := map_eq_ok_iff.mp planned
      cases same
  | _ => cases planned

theorem predicate_intact (plain : scope.Aggregates expression)
    (matched : expression.MatchesIntact context.parameters)
    (planned : context.predicate scope expression = .ok predicate) : expression.Intact := by
  refine reading_intact (fun part member => ⟨fun found => plain.settled member, ?_⟩) planned
  exact fun left right same read => matched part member left right same (denotesNull_of_operand read)

theorem predicate?_intact {condition : Option Expression} {result : Option Predicate}
    (plain : ∀ expression ∈ condition.toList, scope.Aggregates expression)
    (matched : ∀ expression ∈ condition.toList, expression.MatchesIntact context.parameters)
    (planned : context.predicate? scope condition = .ok result) :
    ∀ expression ∈ condition.toList, expression.Intact := by
  cases condition with
  | none => nofun
  | some expression =>
      obtain ⟨predicate, planned, -⟩ := map_eq_ok_iff.mp planned
      exact List.forall_mem_singleton.mpr (predicate_intact (List.forall_mem_singleton.mp plain)
        (List.forall_mem_singleton.mp matched) planned)

end Operands

/-! ## Aggregates -/

section Aggregates

variable {context : PlanContext} {scope : Scope} {expressions found : List Expression}

/-- What is left of a list when repeats are dropped is from the list. -/
theorem foldl_unseen_subset {α : Type} {same : α → α → Bool} {items : List α} :
    items.foldl (fun found item =>
      if found.any fun other => same other item then found else found ++ [item]) [] ⊆ items := by
  have step (items found : List α) : items.foldl (fun found item =>
      if found.any fun other => same other item then found else found ++ [item]) found ⊆
        found ++ items := by
    induction items generalizing found with
    | nil => simp
    | cons item rest ih =>
        rw [List.foldl_cons]
        split
        · exact fun other member => by grind [ih found member]
        · exact fun other member => by grind [ih (found ++ [item]) member]
  exact step items []

/-- Every expression that is left out is the same as one that is not. -/
theorem withoutRepeats_covers :
    ∀ expression ∈ expressions, ∃ other ∈ withoutRepeats expressions,
      other = expression ∨ other.same expression = true := by
  have step (expressions found : List Expression) :
      let kept := expressions.foldl (fun found expression =>
        if found.any fun other => other.same expression then found else found ++ [expression]) found
      (∀ other ∈ found, other ∈ kept) ∧ ∀ expression ∈ expressions, ∃ other ∈ kept,
        other = expression ∨ other.same expression = true := by
    induction expressions generalizing found with
    | nil => exact ⟨fun other member => member, nofun⟩
    | cons expression rest ih =>
        rw [List.foldl_cons]
        split
        · rename_i repeated
          obtain ⟨other, member, same⟩ := List.any_eq_true.mp repeated
          obtain ⟨kept, others⟩ := ih found
          exact ⟨kept, List.forall_mem_cons.mpr ⟨⟨other, kept other member, .inr same⟩, others⟩⟩
        · obtain ⟨kept, others⟩ := ih (found ++ [expression])
          refine ⟨fun other member => kept other (List.mem_append_left _ member),
            List.forall_mem_cons.mpr ⟨⟨expression, kept expression (by simp), .inl rfl⟩, others⟩⟩
  exact (step expressions []).2

theorem ofCall_eq_ok {function : String} {arguments : List Expression} {aggregate : Aggregate}
    (read : Aggregate.ofCall function arguments = .ok aggregate) :
    ∃ argument, arguments = [argument] ∧ (aggregate = .rows → argument = .star) := by
  unfold Aggregate.ofCall at read
  split at read
  · exact ⟨.star, rfl, fun _ => rfl⟩
  all_goals cases read
  all_goals exact ⟨_, rfl, nofun⟩

theorem planAggregate_plain {call : Expression} {planned : Aggregate × Operand}
    (none : scope.aggregates = []) (read : planAggregate context scope call = .ok planned) :
    call.isPlainCall = true := by
  cases call with
  | call function arguments =>
      obtain ⟨aggregate, named, read⟩ := bind_eq_ok_iff.mp read
      obtain ⟨argument, rfl, star⟩ := ofCall_eq_ok named
      have leaf : argument.isLeaf = true := by
        cases aggregate with
        | rows => exact star rfl ▸ rfl
        | _ =>
            obtain ⟨-, read⟩ := guarded_eq_ok_iff.mp read
            obtain ⟨operand, read, -⟩ := bind_eq_ok_iff.mp read
            rcases operand_cases read with leaf | ⟨-, some⟩
            · exact leaf
            · exact absurd none some
      simpa [Expression.isPlainCall] using leaf
  | _ => cases read

theorem itemExpressions_eq (item : SelectItem) : itemExpressions item = item.expressions := by
  cases item <;> rfl

/-- The expressions of a query that may hold aggregates. -/
def Language.Select.summaries (select : Select) : List Expression :=
  select.items.flatMap SelectItem.expressions ++ select.having.toList ++
    select.ordering.map Language.OrderTerm.key

/-- The aggregate calls in a query, in the order in which they stand. -/
def Language.Select.calls (select : Select) : List Expression :=
  (select.summaries.flatMap Expression.parts).filter Expression.isAggregateCall

theorem mem_calls {select : Select} {call : Expression} :
    call ∈ select.calls ↔
      (∃ expression ∈ select.summaries, call ∈ expression.parts) ∧ call.isAggregateCall = true := by
  rw [Language.Select.calls, List.mem_filter, List.mem_flatMap]

theorem aggregateCalls_eq (select : Select) :
    aggregateCalls select = withoutRepeats select.calls := by
  rw [aggregateCalls, Language.Select.calls, Language.Select.summaries, funext itemExpressions_eq]

theorem aggregateCalls_plain {select : Select} {aggregates : List (Aggregate × Operand)}
    (none : scope.aggregates = [])
    (read : (aggregateCalls select).mapM (planAggregate context scope) = .ok aggregates) :
    ∀ expression ∈ select.summaries, ∀ part ∈ expression.parts,
      part.isAggregateCall = true → part.isPlainCall = true := by
  intro expression listed part member aggregate
  obtain ⟨other, kept, same⟩ := withoutRepeats_covers part
    (mem_calls.mpr ⟨⟨expression, listed, member⟩, aggregate⟩)
  rw [← aggregateCalls_eq] at kept
  obtain ⟨planned, read⟩ := mapM_eq_ok read other kept
  have plain := planAggregate_plain none read
  rcases same with rfl | same
  · exact plain
  · exact Expression.isPlainCall_of_same same plain

end Aggregates

/-! ## Queries -/

section Queries

variable {context : PlanContext} {scope : Scope} {select : Select} {source passed rows : Scoped}

theorem planTable_aggregates {reference : Language.TableReference}
    (planned : planTable context reference = .ok source) : source.scope.aggregates = [] := by
  obtain ⟨table, -, made⟩ := bind_eq_ok_iff.mp planned
  obtain rfl := pure_eq_ok_iff.mp made
  rfl

theorem merge_aggregates {left right merged : Scope} (joined : left.merge right = .ok merged) :
    merged.aggregates = left.aggregates := by
  rw [Scope.merge] at joined
  split at joined
  · cases joined
  · cases joined
    rfl

theorem planJoin_aggregates {join : Language.Join} {joined : Scoped}
    (none : source.scope.aggregates = []) (planned : planJoin context source join = .ok joined) :
    joined.scope.aggregates = [] := by
  obtain ⟨right, -, planned⟩ := bind_eq_ok_iff.mp planned
  obtain ⟨scope, merged, planned⟩ := bind_eq_ok_iff.mp planned
  obtain ⟨predicate, -, made⟩ := bind_eq_ok_iff.mp planned
  obtain rfl := pure_eq_ok_iff.mp made
  exact (merge_aggregates merged).trans none

/-- The tables of a query have no aggregates. -/
theorem planSources_aggregates (planned : planSources context select = .ok source) :
    source.scope.aggregates = [] := by
  have joined {first : Scoped} (none : first.scope.aggregates = [])
      (planned : select.joins.foldlM (planJoin context) first = .ok source) :
      source.scope.aggregates = [] :=
    foldlM_ok_invariant (fun source => source.scope.aggregates = [])
      (fun _ _ _ _ none joined => planJoin_aggregates none joined) none planned
  rw [planSources] at planned
  split at planned
  · obtain ⟨first, read, planned⟩ := bind_eq_ok_iff.mp planned
    exact joined (planTable_aggregates read) planned
  · exact joined rfl planned

theorem planCondition_scope {condition : Option Expression}
    (planned : planCondition context source condition = .ok passed) :
    passed.scope = source.scope := by
  cases condition with
  | none =>
      cases planned
      rfl
  | some expression =>
      rw [planCondition, guarded_eq_ok_iff, bind_eq_ok_iff] at planned
      obtain ⟨-, predicate, -, made⟩ := planned
      obtain rfl := pure_eq_ok_iff.mp made
      rfl

theorem planJoin_intact {join : Language.Join} {joined : Scoped}
    (matched : ∀ condition ∈ join.condition.toList, condition.MatchesIntact context.parameters)
    (none : source.scope.aggregates = []) (planned : planJoin context source join = .ok joined) :
    ∀ condition ∈ join.condition.toList, condition.Intact := by
  obtain ⟨right, -, planned⟩ := bind_eq_ok_iff.mp planned
  obtain ⟨scope, merged, planned⟩ := bind_eq_ok_iff.mp planned
  obtain ⟨predicate, read, -⟩ := bind_eq_ok_iff.mp planned
  have none : scope.aggregates = [] := (merge_aggregates merged).trans none
  exact predicate?_intact (fun _ _ => Scope.aggregates_of_nil none) matched read

theorem planJoins_intact {joins : List Language.Join} {joined : Scoped}
    (matched : ∀ join ∈ joins, ∀ condition ∈ join.condition.toList,
      condition.MatchesIntact context.parameters)
    (none : source.scope.aggregates = [])
    (planned : joins.foldlM (planJoin context) source = .ok joined) :
    ∀ join ∈ joins, ∀ condition ∈ join.condition.toList, condition.Intact := by
  induction joins generalizing source with
  | nil => nofun
  | cons join rest ih =>
      obtain ⟨next, first, others⟩ := bind_eq_ok_iff.mp planned
      obtain ⟨inFirst, inRest⟩ := List.forall_mem_cons.mp matched
      exact List.forall_mem_cons.mpr
        ⟨planJoin_intact inFirst none first, ih inRest (planJoin_aggregates none first) others⟩

theorem planSources_intact
    (matched : ∀ join ∈ select.joins, ∀ condition ∈ join.condition.toList,
      condition.MatchesIntact context.parameters)
    (planned : planSources context select = .ok source) :
    ∀ join ∈ select.joins, ∀ condition ∈ join.condition.toList, condition.Intact := by
  rw [planSources] at planned
  split at planned
  · obtain ⟨first, read, planned⟩ := bind_eq_ok_iff.mp planned
    exact planJoins_intact matched (planTable_aggregates read) planned
  · exact planJoins_intact matched rfl planned

theorem planCondition_intact {condition : Option Expression}
    (matched : ∀ expression ∈ condition.toList, expression.MatchesIntact context.parameters)
    (none : source.scope.aggregates = [])
    (planned : planCondition context source condition = .ok passed) :
    ∀ expression ∈ condition.toList, expression.Intact := by
  cases condition with
  | none => nofun
  | some expression =>
      rw [planCondition, guarded_eq_ok_iff, bind_eq_ok_iff] at planned
      obtain ⟨-, predicate, read, -⟩ := planned
      exact List.forall_mem_singleton.mpr (predicate_intact (Scope.aggregates_of_nil none)
        (List.forall_mem_singleton.mp matched) read)

theorem planGroupKey_intact {key : Expression} {planned : Operand × ScopeColumn}
    (none : scope.aggregates = []) (read : planGroupKey context scope key = .ok planned) :
    key.Intact := by
  rw [planGroupKey, guarded_eq_ok_iff, bind_eq_ok_iff] at read
  obtain ⟨-, operand, read, -⟩ := read
  exact operand_intact (Scope.aggregates_of_nil none) read

theorem planGroups_intact (none : source.scope.aggregates = [])
    (planned : planGroups context select source = .ok rows) :
    (∀ key ∈ select.grouping, key.Intact) ∧
      ∀ expression ∈ select.summaries, rows.scope.Aggregates expression := by
  obtain ⟨keys, read, planned⟩ := bind_eq_ok_iff.mp planned
  obtain ⟨aggregates, called, -⟩ := bind_eq_ok_iff.mp planned
  refine ⟨fun key member => ?_, fun expression listed part member aggregate _ => ?_⟩
  · obtain ⟨found, read⟩ := mapM_eq_ok read key member
    exact planGroupKey_intact none read
  · exact aggregateCalls_plain none called expression listed part member aggregate

theorem planItem_intact {item : SelectItem} {grouped : Bool} {columns : List Labelled}
    (plain : ∀ expression ∈ item.expressions, scope.Aggregates expression)
    (planned : planItem context select grouped scope item = .ok columns) :
    ∀ expression ∈ item.expressions, expression.Intact := by
  cases item with
  | every | everyOf => nofun
  | expression value asName =>
      obtain ⟨operand, planned, -⟩ := bind_eq_ok_iff.mp planned
      exact List.forall_mem_singleton.mpr
        (operand_intact (List.forall_mem_singleton.mp plain) planned)

theorem planSortKey_intact {key : Expression} {visible : Nat} {columns : List (Operand × String)}
    {planned : Nat × List (Operand × String)} (plain : scope.Aggregates key)
    (read : planSortKey context scope visible columns key = .ok planned) : key.Intact := by
  unfold planSortKey at read
  split at read
  · exact (Expression.settled_of_isLeaf rfl).intact
  · split at read
    · rename_i labelled
      have leaf : key.isLeaf = true := by
        cases key with
        | field => rfl
        | _ => cases labelled
      exact (Expression.settled_of_isLeaf leaf).intact
    · obtain ⟨operand, read, -⟩ := bind_eq_ok_iff.mp read
      exact operand_intact plain read

theorem planOrdering_intact {terms : List Language.OrderTerm} {visible : Nat}
    {columns : List (Operand × String)} {planned : List (Nat × Bool) × List (Operand × String)}
    (plain : ∀ term ∈ terms, scope.Aggregates term.key)
    (read : planOrdering context scope visible columns terms = .ok planned) :
    ∀ term ∈ terms, term.key.Intact := by
  induction terms generalizing columns planned with
  | nil => nofun
  | cons term rest ih =>
      obtain ⟨first, others⟩ := List.forall_mem_cons.mp plain
      obtain ⟨position, found, read⟩ := bind_eq_ok_iff.mp read
      obtain ⟨more, read, -⟩ := bind_eq_ok_iff.mp read
      exact List.forall_mem_cons.mpr ⟨planSortKey_intact first found, ih others read⟩

/-- Whether a query shows groups of rows. -/
def Language.Select.isGrouped (select : Select) : Bool :=
  select.isAggregate || select.having.isSome

/-- The rows that a query shows, or the groups of them. -/
def planRows (context : PlanContext) (select : Select) (passed : Scoped) : Except Error Scoped :=
  if select.isGrouped then planGroups context select passed else .ok passed

/-- What a query shows of its rows, in order. -/
def planShown (context : PlanContext) (select : Select) (rows : Scoped) :
    Except Error QueryPlan := do
  let having ← context.predicate? rows.scope select.having
  let source := match having with
    | some predicate => QueryPlan.filter predicate rows.plan
    | none => rows.plan
  let items ← select.items.mapM (planItem context select select.isGrouped rows.scope)
  let columns := labelled [] items.flatten
  let (terms, all) ← planOrdering context rows.scope columns.length columns select.ordering
  return planOutput columns.length all terms source

/-- A query as it is planned before its rows are bounded. -/
def planUnbounded (context : PlanContext) (select : Select) : Except Error QueryPlan := do
  let source ← planSources context select
  let passed ← planCondition context source select.condition
  let rows ← planRows context select passed
  planShown context select rows

/-- The bounds on the rows of a query are the last thing that is planned. -/
theorem planSelect_eq :
    planSelect context select = (planUnbounded context select).map (planBounds select) := by
  simp only [planSelect, planUnbounded, planRows, planShown, map_bind]
  refine bind_congr fun source => bind_congr fun passed => ?_
  split
  · rename_i grouped
    rw [if_pos (show select.isGrouped = true from grouped)]
    rfl
  · rename_i plain
    rw [if_neg (show ¬ select.isGrouped = true from plain)]
    rfl

/-- The rows of a query have the aggregates that it shows, and no others. -/
theorem planRows_intact (none : passed.scope.aggregates = [])
    (planned : planRows context select passed = .ok rows) :
    (∀ key ∈ select.grouping, key.Intact) ∧
      ∀ expression ∈ select.summaries, rows.scope.Aggregates expression := by
  rw [planRows] at planned
  split at planned
  · exact planGroups_intact none planned
  · rename_i plain
    cases planned
    refine ⟨?_, fun _ _ => Scope.aggregates_of_nil none⟩
    have ungrouped : select.grouping = [] := by
      simp only [Language.Select.isGrouped, Select.isAggregate, Bool.or_eq_true, not_or] at plain
      simpa using plain.1.1
    rw [ungrouped]
    nofun

theorem planShown_intact {shown : QueryPlan}
    (plain : ∀ expression ∈ select.summaries, rows.scope.Aggregates expression)
    (matched : ∀ expression ∈ select.having.toList, expression.MatchesIntact context.parameters)
    (planned : planShown context select rows = .ok shown) :
    ∀ expression ∈ select.summaries, expression.Intact := by
  simp only [Language.Select.summaries, List.forall_mem_append, List.forall_mem_flatMap,
    List.forall_mem_map] at plain ⊢
  obtain ⟨⟨inItems, inHaving⟩, inOrdering⟩ := plain
  obtain ⟨having, conditioned, planned⟩ := bind_eq_ok_iff.mp planned
  obtain ⟨items, listed, planned⟩ := bind_eq_ok_iff.mp planned
  obtain ⟨ordering, ordered, -⟩ := bind_eq_ok_iff.mp planned
  refine ⟨⟨fun item member => ?_, predicate?_intact inHaving matched conditioned⟩,
    planOrdering_intact inOrdering ordered⟩
  obtain ⟨columns, read⟩ := mapM_eq_ok listed item member
  exact planItem_intact (inItems item member) read

/-- The expressions of a query that is planned read back as they are written. -/
theorem planSelect_intact {plan : QueryPlan}
    (matched : ∀ expression ∈ select.expressions, expression.MatchesIntact context.parameters)
    (planned : planSelect context select = .ok plan) :
    ∀ expression ∈ select.expressions, expression.Intact := by
  simp only [Select.expressions, List.forall_mem_append, List.forall_mem_flatMap,
    List.forall_mem_map] at matched ⊢
  obtain ⟨-, inJoins, inCondition, -, inHaving, -⟩ := matched
  rw [planSelect_eq] at planned
  obtain ⟨shown, planned, -⟩ := map_eq_ok_iff.mp planned
  obtain ⟨source, sources, planned⟩ := bind_eq_ok_iff.mp planned
  have none := planSources_aggregates sources
  have joins := planSources_intact inJoins sources
  obtain ⟨passed, filtered, planned⟩ := bind_eq_ok_iff.mp planned
  have condition := planCondition_intact inCondition none filtered
  obtain ⟨rows, grouped, planned⟩ := bind_eq_ok_iff.mp planned
  obtain ⟨grouping, plain⟩ := planRows_intact (planCondition_scope filtered ▸ none) grouped
  have summaries := planShown_intact plain inHaving planned
  simp only [Language.Select.summaries, List.forall_mem_append, List.forall_mem_flatMap,
    List.forall_mem_map] at summaries
  obtain ⟨⟨items, having⟩, ordering⟩ := summaries
  exact ⟨items, joins, condition, grouping, having, ordering⟩

end Queries

end Coffer
