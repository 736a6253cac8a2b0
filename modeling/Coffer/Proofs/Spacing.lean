import Coffer.Proofs.Readable

namespace Coffer.Language

/-! # The spacing of rendered text

Everything that is rendered is spaced so that it reads back as its tokens, whatever it holds.
A clause may follow any mark: it is empty, or starts with a space or a parenthesis.
-/

variable {marks others : List Mark} {mark : Mark} {negative : Bool} {text : String}

theorem adjoins_of_closes {next : Mark} (closes : next.closes = true) :
    mark.adjoins next = true := by
  unfold Mark.adjoins
  split
  · rfl
  · rfl
  · rw [closes, Bool.or_true]

theorem adjoins_of_opens {next : Mark} (opens : mark.opens = true) :
    mark.adjoins next = true := by
  unfold Mark.adjoins
  split
  · rfl
  · rfl
  · rw [opens, Bool.true_or]

/-- Marks that may follow any others. -/
structure Clause (marks : List Mark) : Prop extends Spaced marks where
  closes : ∀ next ∈ marks.head?, next.closes = true

namespace Spaced

theorem nil : Spaced [] :=
  ⟨.nil, nofun⟩

theorem single (plain : mark.IsPlain) : Spaced [mark] :=
  ⟨.singleton mark, List.forall_mem_cons.mpr ⟨plain, nofun⟩⟩

theorem cons (plain : mark.IsPlain) (follows : ∀ next ∈ marks.head?, mark.adjoins next = true)
    (spaced : Spaced marks) : Spaced (mark :: marks) :=
  ⟨List.isChain_cons.mpr ⟨follows, spaced.chain⟩, List.forall_mem_cons.mpr ⟨plain, spaced.plain⟩⟩

theorem before (plain : mark.IsPlain) (clause : Clause marks) : Spaced (mark :: marks) :=
  .cons plain (fun next head => adjoins_of_closes (clause.closes next head)) clause.toSpaced

theorem opened (plain : mark.IsPlain) (opens : mark.opens = true) (spaced : Spaced marks) :
    Spaced (mark :: marks) :=
  .cons plain (fun _ _ => adjoins_of_opens opens) spaced

theorem append (spaced : Spaced marks) (clause : Clause others) : Spaced (marks ++ others) :=
  ⟨List.isChain_append.mpr ⟨spaced.chain, clause.chain, fun _ _ next head =>
      adjoins_of_closes (clause.closes next head)⟩,
    List.forall_mem_append.mpr ⟨spaced.plain, clause.plain⟩⟩

end Spaced

namespace Clause

theorem nil : Clause [] :=
  ⟨.nil, nofun⟩

theorem append (first : Clause marks) (second : Clause others) : Clause (marks ++ others) := by
  refine ⟨first.toSpaced.append second, ?_⟩
  cases marks with
  | nil => exact second.closes
  | cons mark more => exact first.closes

theorem space (spaced : Spaced marks) : Clause (.space :: marks) :=
  ⟨.opened trivial rfl spaced, fun _ head => by cases head; rfl⟩

theorem parenthesized (spaced : Spaced marks) : Clause (Mark.parenthesized marks) := by
  have closing : Clause [Mark.symbol .closeParen] :=
    ⟨.single trivial, fun _ head => by cases head; rfl⟩
  exact ⟨.opened trivial rfl (spaced.append closing), fun _ head => by cases head; rfl⟩

theorem comma (spaced : Spaced marks) : Clause (Mark.symbol .comma :: .space :: marks) :=
  ⟨.before trivial (.space spaced), fun _ head => by cases head; rfl⟩

theorem flatMap {α : Type} {items : List α} {shown : α → List Mark}
    (all : ∀ item ∈ items, Clause (shown item)) : Clause (items.flatMap shown) := by
  induction items with
  | nil => exact .nil
  | cons item more ih =>
      obtain ⟨first, all⟩ := List.forall_mem_cons.mp all
      exact first.append (ih all)

theorem keywords {words : List Keyword} : Clause (Mark.clause words) :=
  .flatMap fun _ _ => .space (.single trivial)

/-- A clause that may be missing. -/
theorem optional {condition : Prop} [Decidable condition] (clause : Clause marks) :
    Clause (if condition then marks else []) := by
  split
  · exact clause
  · exact .nil

theorem otherwise {condition : Prop} [Decidable condition] (clause : Clause marks) :
    Clause (if condition then [] else marks) := by
  split
  · exact .nil
  · exact clause

end Clause

theorem Spaced.separated {items : List (List Mark)} (all : ∀ item ∈ items, Spaced item) :
    Spaced (Mark.separated items) := by
  cases items with
  | nil => exact .nil
  | cons item more =>
      obtain ⟨first, all⟩ := List.forall_mem_cons.mp all
      exact first.append (.flatMap fun next member => .comma (all next member))

theorem Spaced.listed {α : Type} {items : List α} {shown : α → List Mark}
    (all : ∀ item ∈ items, Spaced (shown item)) : Spaced (Mark.separated (items.map shown)) :=
  .separated (List.forall_mem_map.mpr all)

theorem clause_name {name : String} : Clause [.space, .name name] :=
  .space (.single trivial)

theorem clause_names {names : List String} : Clause (Mark.names names) :=
  .parenthesized (.listed fun _ _ => .single trivial)

/-- Keywords, and what they introduce. -/
theorem Clause.introduced {words : List Keyword} (spaced : Spaced marks) :
    Clause (Mark.clause words ++ .space :: marks) :=
  Clause.keywords.append (.space spaced)

theorem clause_named {words : List Keyword} {name : String} :
    Clause (Mark.clause words ++ [.space, .name name]) :=
  .introduced (.single trivial)

/-! ## Expressions -/

theorem plainNumber_digitsOf {number : Nat} : PlainNumber (digitsOf number) :=
  .whole digitsOf_ne_nil isDigit_digitsOf

theorem spaced_signedNumber (plain : PlainNumber text.toList) :
    Spaced (signedNumber negative text) := by
  have number : Spaced [.token (.number text)] := .single plain
  cases negative with
  | false => exact number
  | true => exact .cons trivial (fun _ head => by cases head; rfl) number

theorem spaced_literal (value : Literal) : Spaced value.marks := by
  cases value with
  | null => exact .single trivial
  | string content => exact .single trivial
  | boolean truth =>
      cases truth with
      | false => exact .single trivial
      | true => exact .single trivial
  | integer number =>
      refine spaced_signedNumber ?_
      rw [String.toList_ofList]
      exact plainNumber_digitsOf
  | real number =>
      rw [Literal.marks]
      by_cases finite : number.isFinite = true
      · obtain ⟨digits, fraction, pointed, -, form⟩ := realMarks_finite finite
        rw [form]
        refine spaced_signedNumber ?_
        rw [String.toList_ofList]
        exact .point pointed.nonempty pointed.before pointed.after
      · have broken : number.isWhole = false := by
          rw [Binary64.isWhole, Bool.eq_false_iff.mpr finite, Bool.false_and]
        rw [realMarks, broken, Bool.eq_false_iff.mpr finite]
        exact .single trivial

theorem spaced_guarded {operand : Expression} {place : Nat} (spaced : Spaced marks) :
    Spaced (operand.guarded marks place) := by
  rw [Expression.guarded]
  split
  · exact (Clause.parenthesized spaced).toSpaced
  · exact spaced

theorem spaced_expression (expression : Expression) : Spaced expression.marks := by
  induction expression using Expression.induct with
  | field relation name =>
      cases relation with
      | none => exact .single trivial
      | some relation =>
          exact .cons trivial (fun _ head => by cases head; rfl)
            (.opened trivial rfl (.single trivial))
  | literal value => exact spaced_literal value
  | parameter index => exact .single trivial
  | star => exact .single trivial
  | call function arguments ih =>
      rw [Expression.marks, Expression.marksOfList_eq]
      exact .before trivial (.parenthesized (.listed ih))
  | binary operator left right first second =>
      have plain : (Mark.token operator.token).IsPlain := by cases operator <;> trivial
      exact (spaced_guarded first).append
        (.space (.before plain (.space (spaced_guarded second))))
  | not operand ih => exact .before trivial (.space (spaced_guarded ih))
  | isNull operand ih => exact (spaced_guarded ih).append .keywords
  | isIn operand items ih others =>
      rw [Expression.marks, Expression.marksOfList_eq]
      exact (spaced_guarded ih).append
        (.introduced (Clause.parenthesized (.listed others)).toSpaced)
  | between operand low high ih lowIh highIh =>
      exact (spaced_guarded ih).append
        (.introduced ((spaced_guarded lowIh).append (.introduced (spaced_guarded highIh))))

theorem clause_optional {words : List Keyword} (found : Option Expression) :
    Clause (optionalClause words found) := by
  cases found with
  | none => exact .nil
  | some expression => exact .introduced (spaced_expression expression)

theorem spaced_expressions (expressions : List Expression) :
    Spaced (Mark.separated (expressions.map Expression.marks)) :=
  .listed fun expression _ => spaced_expression expression

/-! ## Statements -/

theorem clause_count {word : Keyword} (count : Option Nat) : Clause (countClause word count) := by
  cases count with
  | none => exact .nil
  | some count =>
      refine .introduced (.single ?_)
      rw [Mark.IsPlain, String.toList_ofList]
      exact plainNumber_digitsOf

theorem spaced_tableReference (reference : TableReference) : Spaced reference.marks := by
  rw [TableReference.marks]
  cases reference.asName with
  | none => exact .single trivial
  | some asName => exact .before trivial clause_named

theorem spaced_selectItem (item : SelectItem) : Spaced item.marks := by
  cases item with
  | every => exact .single trivial
  | everyOf relation =>
      exact .cons trivial (fun _ head => by cases head; rfl)
        (.opened trivial rfl (.single trivial))
  | expression value asName =>
      cases asName with
      | none => exact spaced_expression value
      | some asName => exact (spaced_expression value).append clause_named

theorem clause_join (join : Join) : Clause join.marks :=
  .introduced ((spaced_tableReference join.table).append (clause_optional join.condition))

theorem spaced_orderTerm (term : OrderTerm) : Spaced term.marks :=
  (spaced_expression term.key).append (.optional .keywords)

theorem spaced_select (select : Select) : Spaced select.marks := by
  obtain ⟨distinct, items, source, joins, condition, grouping, having, ordering, limit, offset⟩ :=
    select
  have list : Clause (.space :: Mark.separated (items.map SelectItem.marks)) :=
    .space (.listed fun item _ => spaced_selectItem item)
  have joined : Clause (joins.flatMap Join.marks) := .flatMap fun join _ => clause_join join
  refine .before trivial (((((((((Clause.optional .keywords).append list).append ?_).append
    joined).append (clause_optional condition)).append (.otherwise ?_)).append
    (clause_optional having)).append (.otherwise ?_)).append (clause_count limit) |>.append
    (clause_count offset))
  · cases source with
    | none => exact .nil
    | some source => exact .introduced (spaced_tableReference source)
  · exact .introduced (spaced_expressions grouping)
  · exact .introduced (.listed fun term _ => spaced_orderTerm term)

theorem clause_resolution (resolution : Option Resolution) :
    Clause (resolutionMarks resolution) := by
  cases resolution with
  | none => exact .nil
  | some resolution => exact .introduced (.single (by cases resolution <;> trivial))

theorem clause_insertSource (source : InsertSource) : Clause source.marks := by
  cases source with
  | values rows =>
      exact .introduced (.listed fun row _ =>
        (Clause.parenthesized (spaced_expressions row)).toSpaced)
  | query select => exact .space (spaced_select select)

theorem spaced_insert (insert : Insert) : Spaced insert.marks := by
  obtain ⟨resolution, table, columns, source⟩ := insert
  refine .before trivial (((((clause_resolution resolution).append .keywords).append
    clause_name).append ?_).append (clause_insertSource source))
  cases columns with
  | none => exact .nil
  | some columns => exact .space clause_names.toSpaced

theorem spaced_update (update : Update) : Spaced update.marks := by
  have assigned : Spaced (Mark.separated (update.assignments.map fun assignment =>
      [.name assignment.1, .space, .symbol .equal, .space] ++ assignment.2.marks)) :=
    .listed fun assignment _ => .before trivial (.space (.before trivial
      (.space (spaced_expression assignment.2))))
  exact .before trivial (((((clause_resolution update.resolution).append clause_name).append
    .keywords).append (.space assigned)).append (clause_optional update.condition))

theorem spaced_delete (delete : Delete) : Spaced delete.marks :=
  .before trivial ((Clause.keywords.append clause_name).append (clause_optional delete.condition))

theorem spaced_columnDefinition (column : ColumnDefinition) : Spaced column.marks := by
  obtain ⟨name, type, primaryKey, autoincrement, nullable, default, unique, references⟩ := column
  have head : Spaced [.name name, .space, .name type.name] := .before trivial clause_name
  refine (((((head.append (.optional .keywords)).append (.optional .keywords)).append ?_).append
    (.optional .keywords)).append (clause_optional default)).append ?_
  · cases nullable with
    | none => exact .nil
    | some allowed =>
        cases allowed with
        | false => exact .keywords
        | true => exact .keywords
  · cases references with
    | none => exact .nil
    | some reference =>
        obtain ⟨table, target⟩ := reference
        cases target with
        | none => exact clause_named.append .nil
        | some name => exact clause_named.append (.parenthesized (.single trivial))

theorem clause_definition (definition : Definition) (stored : definition.kind ≠ .trigger) :
    Clause definition.marks := by
  cases definition with
  | table columns =>
      exact .space (Clause.parenthesized
        (.listed fun column _ => spaced_columnDefinition column)).toSpaced
  | index owner columns unique =>
      have target : Spaced [.name owner, .space] := .before trivial (.space .nil)
      exact (Clause.introduced target).append clause_names
  | view query => exact .introduced (spaced_select query)
  | trigger body => exact absurd rfl stored

theorem spaced_create (create : Create) (stored : create.definition.kind ≠ .trigger) :
    Spaced create.marks :=
  .before trivial (((((Clause.optional .keywords).append (.optional .keywords)).append
    .keywords).append (.optional .keywords)).append clause_name |>.append
      (clause_definition create.definition stored))

theorem spaced_drop (drop : Drop) : Spaced drop.marks :=
  .before trivial ((Clause.keywords.append (.optional .keywords)).append clause_name)

theorem clause_alterAction (action : AlterAction) : Clause action.marks := by
  cases action with
  | addColumn column => exact .introduced (spaced_columnDefinition column)
  | renameTable name => exact clause_named
  | renameColumn source target =>
      exact (clause_named.append .keywords).append clause_name

theorem spaced_alter (alter : Alter) : Spaced alter.marks :=
  .before trivial (clause_named.append (clause_alterAction alter.action))

theorem spaced_privileges (privileges : Privileges) : Spaced privileges.marks := by
  cases privileges with
  | every => exact .single trivial
  | listed permissions => exact .listed fun permission _ => .single trivial

theorem spaced_privilege {verb preposition : Keyword} (privilege : Privilege) :
    Spaced (privilege.marks verb preposition) := by
  obtain ⟨privileges, table, grantee⟩ := privilege
  refine .before trivial (.space ((((spaced_privileges privileges).append ?_).append
    .keywords).append clause_name))
  cases table with
  | none => exact .nil
  | some table => exact clause_named

/-- Whether a statement defines a trigger, whose body is text. -/
def Statement.isTrigger : Statement → Bool
  | .create body => body.definition.kind == .trigger
  | _ => false

/-- Every statement is spaced, with the text of a trigger left aside. -/
theorem spaced_statement (statement : Statement) (parsed : statement.isTrigger = false) :
    Spaced statement.marks := by
  cases statement with
  | begin => exact .single trivial
  | commit => exact .single trivial
  | rollback => exact .single trivial
  | create body => exact spaced_create body (beq_eq_false_iff_ne.mp parsed)
  | drop body => exact spaced_drop body
  | alter body => exact spaced_alter body
  | select body => exact spaced_select body
  | insert body => exact spaced_insert body
  | update body => exact spaced_update body
  | delete body => exact spaced_delete body
  | grant privilege => exact spaced_privilege privilege
  | revoke privilege => exact spaced_privilege privilege

end Coffer.Language
