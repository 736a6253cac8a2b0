import Coffer.Proofs.LaterPlaceholders
import Coffer.Proofs.QueryAnswer
import Coffer.Proofs.TokensTaken
import Coffer.Proofs.UpdateInOrder

namespace Coffer

/-! # Selected rows

Queries, deletions and updates each find the rows that a condition holds of in a way of their own:
by a filter over the rows, by a list of positions, and by staging one row after another. The
condition is read, resolved and tested alike in all of them.
-/

/-! ## Conditions in texts -/

namespace Language

variable {sql condition name : String} {expression : Expression} {count total first : Nat}
variable {before tokens sets clause : List Token} {after : Cursor} {token : Token} {found : Statement}

/-- Whether a statement is made of some tokens and a condition after WHERE. -/
def EndsWhere (sql : String) (before : List Token) (condition : String) : Prop :=
  tokensOf sql =
    ⟨before ++ .keyword .«where» :: (tokensOf condition).tokens, (tokensOf condition).fault⟩

instance : Decidable (EndsWhere sql before condition) :=
  inferInstanceAs (Decidable (_ = _))

/-- The text of a condition is read to its end. -/
theorem anyExpression_of_parse (read : parseExpression condition = .ok expression) :
    (tokensOf condition).fault = none ∧ ∃ count,
      anyExpression ⟨(tokensOf condition).tokens, none, 0⟩ =
        .ok (expression, ⟨[], none, count⟩) := by
  obtain ⟨⟨found, last⟩, ran, rfl⟩ := map_eq_ok_iff.mp read
  obtain ⟨other, middle, only, ended⟩ := Reader.bind_eq_ok_iff.mp ran
  obtain ⟨_, later, finished, made⟩ := Reader.bind_eq_ok_iff.mp ended
  obtain ⟨rfl, rfl⟩ := Reader.pure_eq_ok_iff.mp made
  have clean := (ended_eq_ok finished).1
  have empty := tokens_of_ended finished
  obtain ⟨tokens, fault, count⟩ := middle
  cases clean
  cases empty
  have same : none = (tokensOf condition).fault := (anyExpression_takes _ only).1
  rw [Cursor.ofText, ← same] at only
  exact ⟨same.symm, count, only⟩

def queryTokens (table : String) : List Token :=
  [.keyword .select, .symbol .asterisk, .keyword .«from», .identifier table]

def deletionTokens (table : String) : List Token :=
  [.keyword .delete, .keyword .«from», .identifier table]

/-- The tokens of an update up to its condition, with those of its conflict clause and its
assignments. -/
def updateTokens (clause : List Token) (table : String) (sets : List Token) : List Token :=
  .keyword .update :: clause ++ .identifier table :: .keyword .set :: sets

/-- Whether a conflict clause is left out or names the resolution of those without one. -/
def Aborts (clause : List Token) : Prop :=
  clause = [] ∨ ∃ word, clause = [.keyword .or, word] ∧ Resolution.ofName? word.text = some .abort

/-! ## Queries and deletions -/

/-- All columns of the rows of a table that pass a condition. -/
def Select.everyWhere (table : String) (condition : Expression) : Select :=
  { distinct := false, items := [.every], source := some ⟨table, none⟩, joins := []
    condition := some condition, grouping := [], having := none, ordering := [], limit := none
    offset := none }

theorem conditionAfter_where (read : anyExpression ⟨tokens, none, first⟩ = .ok (expression, after)) :
    conditionAfter .«where» ⟨.keyword .«where» :: tokens, none, first⟩ =
      .ok (some expression, after) := by
  rw [conditionAfter, Reader.acceptWord, Reader.bind_ok (Reader.accept_cons _), if_pos rfl,
    Reader.bind_ok read]
  rfl

theorem select_everyWhere
    (read : anyExpression ⟨tokens, none, 0⟩ = .ok (expression, ⟨[], none, count⟩)) :
    select ⟨queryTokens name ++ .keyword .«where» :: tokens, none, 0⟩ =
      .ok (.everyWhere name expression, ⟨[], none, count⟩) := by
  have items : Reader.separated selectItem ⟨.symbol .asterisk :: .keyword .«from» ::
        .identifier name :: .keyword .«where» :: tokens, none, 0⟩ =
      .ok ([.every], ⟨.keyword .«from» :: .identifier name :: .keyword .«where» :: tokens, none, 0⟩) :=
    rfl
  have table : tableReference ⟨.identifier name :: .keyword .«where» :: tokens, none, 0⟩ =
      .ok (⟨name, none⟩, ⟨.keyword .«where» :: tokens, none, 0⟩) := rfl
  have alone : joins ⟨.keyword .«where» :: tokens, none, 0⟩ =
      .ok ([], ⟨.keyword .«where» :: tokens, none, 0⟩) := rfl
  simp only [select, queryTokens, Reader.expectWord, Reader.acceptWord, List.cons_append,
    List.nil_append]
  rw [Reader.bind_ok (Reader.expect_cons _), Reader.bind_ok (Reader.accept_stops (stops_cons rfl)),
    if_pos rfl, Reader.bind_ok (Reader.accept_stops (stops_cons rfl)), Reader.bind_ok items,
    Reader.bind_ok (Reader.accept_cons _), if_pos rfl, Reader.bind_ok table, Reader.bind_ok alone,
    pure_bind, Reader.bind_ok (conditionAfter_where read)]
  rfl

theorem delete_where
    (read : anyExpression ⟨tokens, none, 0⟩ = .ok (expression, ⟨[], none, count⟩)) :
    delete ⟨deletionTokens name ++ .keyword .«where» :: tokens, none, 0⟩ =
      .ok (⟨name, some expression⟩, ⟨[], none, count⟩) := by
  simp only [delete, deletionTokens, Reader.expectWord, List.cons_append, List.nil_append]
  rw [Reader.bind_ok (Reader.expect_cons _), Reader.bind_ok (Reader.expect_cons _),
    Reader.bind_ok (Reader.name_cons _), Reader.bind_ok (conditionAfter_where read)]
  rfl

/-- A statement that ends where its text does. -/
theorem parseStatement_of_tokens {type : StatementType}
    (text : tokensOf sql = ⟨token :: tokens, none⟩) (told : StatementType.ofToken token = .ok type)
    (read : statementOf type ⟨token :: tokens, none, 0⟩ = .ok (found, ⟨[], none, count⟩)) :
    parseStatement sql = .ok (found, count) := by
  have stated : statement ⟨token :: tokens, none, 0⟩ = .ok (found, ⟨[], none, count⟩) := by
    rw [statement, Reader.bind_ok Reader.peek_eq]
    have lifted : (liftM (StatementType.ofToken token) : Reader StatementType)
        ⟨token :: tokens, none, 0⟩ = .ok (type, ⟨token :: tokens, none, 0⟩) :=
      Reader.lift_eq_ok_iff.mpr ⟨told, rfl⟩
    exact (Reader.bind_ok lifted).trans read
  have whole : wholeStatement (.ofText sql) = .ok (found, ⟨[], none, count⟩) := by
    rw [Cursor.ofText, text, wholeStatement, Reader.bind_ok stated]
    rfl
  rw [parseStatement, whole]

/-! ## Updates -/

/-- Of tokens with a WHERE a condition is read up to the end only if the first one is the WHERE. -/
theorem conditionAfter_eq_ok {result : Option Expression}
    (read : conditionAfter .«where» ⟨tokens, none, first⟩ = .ok (result, after))
    (within : .keyword .«where» ∈ tokens) (none : .keyword .«where» ∉ after.tokens) :
    ∃ rest expression, tokens = .keyword .«where» :: rest ∧ .keyword .«where» ∉ rest ∧
      result = some expression ∧
      anyExpression ⟨rest, Option.none, first⟩ = .ok (expression, after) := by
  rw [conditionAfter, Reader.acceptWord] at read
  by_cases stops : Stops (· == Token.keyword .«where») tokens
  · rw [Reader.bind_ok (Reader.accept_stops stops)] at read
    obtain ⟨-, rfl⟩ := Reader.pure_eq_ok_iff.mp read
    exact absurd within none
  · obtain ⟨_, rest, rfl, mark⟩ := exists_of_not_stops stops
    obtain rfl := beq_iff_eq.mp mark
    rw [Reader.bind_ok (Reader.accept_cons _), if_pos rfl] at read
    obtain ⟨expression, middle, only, made⟩ := Reader.bind_eq_ok_iff.mp read
    obtain ⟨rfl, rfl⟩ := Reader.pure_eq_ok_iff.mp made
    obtain ⟨-, taken, split, passed⟩ := anyExpression_takes _ only
    refine ⟨rest, expression, rfl, ?_, rfl, only⟩
    change rest = _ at split
    rw [split, List.mem_append]
    exact fun member => member.elim (fun among => passed _ among rfl) none

/-- A conflict clause of an update has the default resolution. -/
theorem resolution?_aborts (aborts : Aborts clause) :
    ∃ resolution : Option Resolution, resolution.getD .abort = .abort ∧
      resolution? ⟨clause ++ .identifier name :: tokens, none, first⟩ =
        .ok (resolution, ⟨.identifier name :: tokens, none, first⟩) := by
  rcases aborts with rfl | ⟨word, rfl, named⟩
  · exact ⟨none, rfl, rfl⟩
  · refine ⟨some .abort, rfl, ?_⟩
    have read : Reader.next ⟨word :: .identifier name :: tokens, none, first⟩ =
        .ok (word, ⟨.identifier name :: tokens, none, first⟩) := rfl
    rw [resolution?, Reader.acceptWord, List.cons_append, List.singleton_append,
      Reader.bind_ok (Reader.accept_cons _), if_pos rfl, Reader.bind_ok read, named]
    rfl

/-- An update whose text ends with a condition has this condition, with its placeholders numbered on
from those of the assignments. -/
theorem update_where (aborts : Aborts clause)
    (text : EndsWhere sql (updateTokens clause name sets) condition)
    (only : anyExpression ⟨(tokensOf condition).tokens, none, 0⟩ =
      .ok (expression, ⟨[], none, count⟩))
    (read : parseStatement sql = .ok (found, total)) :
    ∃ body earlier, found = .update body ∧ body.resolution.getD .abort = .abort ∧ body.table = name ∧
      body.condition = some (expression.later earlier) ∧ total = earlier + count := by
  obtain ⟨clean, middle, stated, rfl, ends⟩ := parseStatement_ends read
  have unending : Token.keyword .«where» ∉ middle.tokens := by
    rcases ends with ends | ends <;> simp [ends]
  rw [Cursor.ofText, clean, text] at stated
  obtain ⟨⟨token, head, told⟩, typed⟩ := statement_eq_ok stated
  cases head
  have type : found.type = .update := (Except.ok.inj told).symm
  rw [type] at typed
  obtain ⟨body, later, updates, made⟩ := Reader.bind_eq_ok_iff.mp typed
  obtain ⟨rfl, rfl⟩ := Reader.pure_eq_ok_iff.mp made
  simp only [update, updateTokens, Reader.expectWord, List.cons_append, List.append_assoc] at updates
  obtain ⟨resolution, default, resolved⟩ := resolution?_aborts aborts
  rw [Reader.bind_ok (Reader.expect_cons _), Reader.bind_ok resolved,
    Reader.bind_ok (Reader.name_cons _), Reader.bind_ok (Reader.expect_cons _)] at updates
  obtain ⟨changes, ⟨left, fault, earlier⟩, assigned, updates⟩ := Reader.bind_eq_ok_iff.mp updates
  obtain ⟨result, last, conditioned, made⟩ := Reader.bind_eq_ok_iff.mp updates
  obtain ⟨rfl, rfl⟩ := Reader.pure_eq_ok_iff.mp made
  obtain ⟨same, taken, split, passed⟩ := assignments_take _ assigned
  obtain rfl : fault = none := same
  -- All that the assignments leave starts with a WHERE, and it is the only one that is left.
  have apart : Token.keyword .«where» ∉ taken := fun member => passed _ member rfl
  have within : Token.keyword .«where» ∈ left := by
    have member : Token.keyword .«where» ∈ taken ++ left :=
      split ▸ List.mem_append_right _ List.mem_cons_self
    exact (List.mem_append.mp member).resolve_left apart
  obtain ⟨rest, found, rfl, unmarked, rfl, again⟩ :=
    conditionAfter_eq_ok conditioned within unending
  obtain ⟨-, -, rfl⟩ := (List.append_cons_inj_of_notMem apart unmarked).mp split.symm
  cases again.symm.trans (anyExpression_carries earlier only)
  exact ⟨_, earlier, rfl, default, rfl, rfl, rfl⟩

end Language

open Language (Expression EndsWhere Aborts queryTokens deletionTokens updateTokens tokensOf
  anyExpression parseStatement parseStatement_of_tokens select_everyWhere delete_where update_where)

/-! ## The rows of a query -/

theorem Store.table_of_relation {store : Store} {name : String} {relation : Relation}
    (found : store.relation name = .ok relation) : store.table name = .ok relation.schema := by
  rw [table, found]
  rfl

theorem map_fst_labelled {earlier : List String} {items : List Labelled} :
    (labelled earlier items).map Prod.fst = items.map Labelled.operand := by
  induction items generalizing earlier with
  | nil => rfl
  | cons item rest ih => rw [labelled, List.map_cons, List.map_cons, ih]

theorem map_operand_scopeColumns {scope : Scope} :
    (scopeColumns scope (List.range scope.columns.length)).map Labelled.operand =
      (List.range scope.columns.length).map Operand.column := by
  rw [scopeColumns, List.map_filterMap, ← List.filterMap_eq_map]
  refine List.filterMap_congr fun position member => ?_
  have within := List.mem_range.mp member
  simp [Scope.column?, within]

section

variable {context : PlanContext} {name : String} {expression : Expression} {plan : QueryPlan}
variable {relation : Relation} {set : RowSet} {scope : Scope}

/-- All columns of a scope make up the rows over it. -/
theorem project_every {row : Tuple} (wide : row.length = scope.columns.length) :
    (labelled [] (scopeColumns scope (List.range scope.columns.length))).map
      (fun column => column.1.value row) = row := by
  have operands : (labelled [] (scopeColumns scope (List.range scope.columns.length))).map Prod.fst =
      (List.range scope.columns.length).map Operand.column :=
    map_fst_labelled.trans map_operand_scopeColumns
  have values := congrArg (List.map (Operand.value row)) operands
  rw [List.map_map, List.map_map] at values
  refine values.trans ((map_column_range wide.ge).trans ?_)
  rw [← wide, List.take_length]

/-- A condition on the rows of a single table is all that a query for them plans. -/
theorem planSelect_everyWhere (found : context.store.relation name = .ok relation)
    (named : relation.schema.name = name)
    (planned : planSelect context (.everyWhere name expression) = .ok plan) :
    ∃ predicate, context.predicate (.ofTable relation.schema none) expression = .ok predicate ∧
      plan = .projection
        (labelled [] (scopeColumns (.ofTable relation.schema none)
          (List.range (Scope.ofTable relation.schema none).columns.length)))
        (.filter predicate (.scan name none)) := by
  have source : planSources context (.everyWhere name expression) =
      .ok ⟨.scan name none, .ofTable relation.schema none⟩ := by
    simp only [planSources, Language.Select.everyWhere, planTable, Store.table_of_relation found,
      ok_bind, named]
    rfl
  rw [planSelect_eq] at planned
  obtain ⟨unbounded, read, rfl⟩ := map_eq_ok_iff.mp planned
  rw [planUnbounded, source, ok_bind] at read
  obtain ⟨passed, filtered, read⟩ := bind_eq_ok_iff.mp read
  change planCondition context _ (some expression) = _ at filtered
  rw [planCondition, guarded_eq_ok_iff] at filtered
  obtain ⟨predicate, resolved, made⟩ := bind_eq_ok_iff.mp filtered.2
  obtain rfl := pure_eq_ok_iff.mp made
  obtain ⟨rows, ungrouped, read⟩ := bind_eq_ok_iff.mp read
  cases ungrouped
  cases read
  refine ⟨predicate, resolved, ?_⟩
  simp only [planOutput, List.reverse_singleton, List.flatten_singleton, Nat.lt_irrefl, if_false]
  rfl

/-- A query for the rows of a table that pass a condition gives just these, as they are. -/
theorem rows_everyWhere (found : context.store.relation name = .ok relation)
    (named : relation.schema.name = name)
    (planned : planSelect context (.everyWhere name expression) = .ok plan)
    (ran : plan.run context.store = .ok set) :
    ∃ predicate, context.predicate (.ofTable relation.schema none) expression = .ok predicate ∧
      set.rows = relation.tuples.filter predicate.test := by
  obtain ⟨predicate, resolved, rfl⟩ := planSelect_everyWhere found named planned
  refine ⟨predicate, resolved, ?_⟩
  simp only [QueryPlan.run, found, Except.map, Except.ok.injEq] at ran
  rw [← ran, RowSet.project, RowSet.mapRows]
  refine (List.map_congr_left fun row member => ?_).trans (List.map_id _)
  obtain ⟨stored, -, rfl⟩ := List.mem_map.mp (List.mem_of_mem_filter member)
  refine project_every (Table.length_tuple.trans ?_)
  simp [Scope.ofTable, Table.columnNames]

end

/-! ## Deletions and updates -/

namespace Relation

variable {relation : Relation} {filter : Option Predicate} {position : Nat}

/-- Whether a condition holds of a row; unknown is not enough. -/
def selects (relation : Relation) (predicate : Predicate) (row : Row) : Bool :=
  predicate.evaluate (relation.schema.tuple row) == some true

theorem filter_tuples {predicate : Predicate} : relation.tuples.filter predicate.test =
    (relation.rows.filter (relation.selects predicate)).map relation.schema.tuple :=
  List.filter_map

theorem mem_passingPositions :
    position ∈ relation.passingPositions filter ↔
      ∃ row, relation.rows[position]? = some row ∧
        passes filter (relation.schema.tuple row) = true := by
  have numbered {entry : Nat × Tuple} : entry ∈ relation.numberedTuples ↔
      relation.tuples[entry.1]? = some entry.2 := by
    simp only [numberedTuples, List.mem_iff_getElem?, List.getElem?_zip_eq_some]
    constructor
    · rintro ⟨place, numbered, found⟩
      obtain rfl : place = entry.1 := by
        simpa using (List.getElem?_eq_some_iff.mp numbered).2
      exact found
    · intro found
      have within : entry.1 < relation.rows.length := by
        simpa [tuples] using (List.getElem?_eq_some_iff.mp found).1
      exact ⟨entry.1, by simp [within], found⟩
  simp only [passingPositions, List.mem_map, List.mem_filter, numbered, tuples, List.getElem?_map,
    Option.map_eq_some_iff]
  constructor
  · rintro ⟨⟨place, _⟩, ⟨⟨row, found, rfl⟩, passed⟩, rfl⟩
    exact ⟨row, found, passed⟩
  · rintro ⟨row, found, passed⟩
    exact ⟨⟨position, relation.schema.tuple row⟩, ⟨⟨row, found, rfl⟩, passed⟩, rfl⟩

theorem length_passingPositions :
    (relation.passingPositions filter).length = (relation.tuples.filter (passes filter)).length := by
  have second : relation.numberedTuples.map Prod.snd = relation.tuples := by
    rw [numberedTuples, List.map_snd_zip (by simp [tuples])]
  rw [passingPositions, List.length_map, ← second, List.filter_map, List.length_map]
  rfl

/-- The rows outside of the positions at which a test passes are those that fail it. -/
theorem rowsOutside_eq_filter {positions : List Nat} {test : Row → Bool} {rows : List Row}
    {start : Nat}
    (agrees : ∀ index row, rows[index]? = some row → (start + index ∈ positions ↔ test row = true)) :
    rowsOutside positions start rows = rows.filter fun row => !test row := by
  induction rows generalizing start with
  | nil => rfl
  | cons row rest ih =>
      have first := agrees 0 row rfl
      have others : rowsOutside positions (start + 1) rest = rest.filter fun row => !test row := by
        refine ih fun index other found => ?_
        rw [Nat.add_assoc, Nat.add_comm 1 index]
        exact agrees (index + 1) other found
      rw [rowsOutside, others]
      cases passed : test row with
      | false =>
          have outside : start ∉ positions := by simpa [passed] using first
          simp [outside, passed]
      | true =>
          have inside : start ∈ positions := by simpa [passed] using first
          simp [inside, passed]

/-- A deletion removes the rows of which its condition holds, and counts them. -/
theorem deleteAll_selected (predicate : Predicate) :
    (relation.deleteAll (some predicate)).1.schema = relation.schema ∧
      (relation.deleteAll (some predicate)).1.rows =
        relation.rows.filter (fun row => !relation.selects predicate row) ∧
      (relation.deleteAll (some predicate)).2 =
        (relation.rows.filter (relation.selects predicate)).length := by
  refine ⟨schema_delete, ?_, ?_⟩
  · rw [deleteAll, rows_delete]
    refine rowsOutside_eq_filter fun index row found => ?_
    rw [Nat.zero_add, mem_passingPositions, found]
    simp [passes, selects, Predicate.test]
  · change (relation.passingPositions (some predicate)).length = _
    rw [length_passingPositions, ← List.length_map relation.schema.tuple, ← filter_tuples]
    rfl

end Relation

/-- The place of a row after an update went over it, where every row that passes can be changed. -/
def Table.seatAfter (table : Table) (filter : Option Predicate) (assignments : List (Nat × Operand))
    (tuple : Tuple) : Seat :=
  if passes filter tuple then ⟨table.assigned assignments tuple, true⟩ else ⟨tuple, false⟩

section

variable {table : Table} {filter : Option Predicate} {assignments : List (Nat × Operand)}

/-- A visit that goes well where no row may give way takes its seat, and no other one. -/
theorem visit_abort {done rest after : List (Option Seat)} {tuple : Tuple}
    (visited : table.visit filter assignments .abort (done ++ some ⟨tuple, false⟩ :: rest)
      (done.length, tuple) = .ok after) :
    after = done ++ some (table.seatAfter filter assignments tuple) :: rest := by
  rw [Table.visit] at visited
  simp only [List.getElem?_append_right (Nat.le_refl _), Nat.sub_self,
    List.getElem?_cons_zero] at visited
  rw [Table.seatAfter]
  split at visited
  · rename_i passed
    obtain ⟨_, -, seated⟩ := bind_eq_ok_iff.mp visited
    rw [if_pos passed]
    rw [Table.seated] at seated
    split at seated
    · cases seated
      simp
    · cases seated
  · rename_i fails
    cases visited
    rw [if_neg fails]

theorem foldlM_visit_abort {tuples : List Tuple} {done after : List (Option Seat)}
    (visited : ((List.range' done.length tuples.length).zip tuples).foldlM
      (table.visit filter assignments .abort)
      (done ++ tuples.map fun tuple => some ⟨tuple, false⟩) = .ok after) :
    after = done ++ tuples.map fun tuple => some (table.seatAfter filter assignments tuple) := by
  induction tuples generalizing done with
  | nil =>
      cases visited
      rfl
  | cons tuple rest ih =>
      rw [List.length_cons, List.range'_succ, List.zip_cons_cons, List.foldlM_cons,
        List.map_cons] at visited
      obtain ⟨next, first, others⟩ := bind_eq_ok_iff.mp visited
      obtain rfl := visit_abort first
      -- The seat that was taken counts among those that are done.
      have length : done.length + 1 =
          (done ++ [some (table.seatAfter filter assignments tuple)]).length := by
        rw [List.length_append, List.length_singleton]
      rw [List.append_cons, length] at others
      rw [ih others, List.map_cons, ← List.append_cons]

theorem updateInOrder_abort {relation : Relation} {left : List Seat}
    (walked : relation.updateInOrder filter assignments .abort = .ok left) :
    left = relation.tuples.map (relation.schema.seatAfter filter assignments) := by
  obtain ⟨seats, visited, rfl⟩ := map_eq_ok_iff.mp walked
  rw [Relation.numberedTuples, List.range_eq_range'] at visited
  have length : relation.rows.length = relation.tuples.length := (List.length_map _).symm
  rw [length] at visited
  have all := @foldlM_visit_abort relation.schema filter assignments relation.tuples [] seats visited
  rw [all, List.nil_append, List.filterMap_map]
  exact congrFun List.filterMap_eq_map _

/-- An update changes the rows of which its condition holds, and counts them. -/
theorem updateAll_selected {relation after : Relation} {predicate : Predicate} {count : Nat}
    (wellFormed : relation.WellFormed)
    (ran : relation.updateAll (some predicate) assignments .abort = .ok (after, count)) :
    after.schema = relation.schema ∧
      (after.rows = relation.rows.map fun row =>
        if relation.selects predicate row then
          relation.schema.row (relation.schema.assigned assignments (relation.schema.tuple row))
        else row) ∧
      count = (relation.rows.filter (relation.selects predicate)).length := by
  have agrees := updateAll_eq_updateInOrder relation (some predicate) assignments .abort wellFormed
  cases walked : relation.updateInOrder (some predicate) assignments .abort with
  | error error =>
      rw [walked, ran] at agrees
      cases agrees
  | ok left =>
      rw [walked, ran] at agrees
      obtain ⟨renewed, made, schema, rows⟩ := agrees
      cases made
      obtain rfl := updateInOrder_abort walked
      have seated (row : Row) : relation.schema.seatAfter (some predicate) assignments
            (relation.schema.tuple row) =
          if relation.selects predicate row then
            ⟨relation.schema.assigned assignments (relation.schema.tuple row), true⟩
          else ⟨relation.schema.tuple row, false⟩ := rfl
      refine ⟨schema, ?_, ?_⟩
      · rw [rows, Relation.tuples, List.map_map, List.map_map]
        refine List.map_congr_left fun row member => ?_
        have kept := Table.row_tuple (wellFormed.rowsHeld row member).columns wellFormed.distinct
        rw [Function.comp_apply, Function.comp_apply, seated]
        cases relation.selects predicate row with
        | false => exact kept
        | true => rfl
      · rw [List.countP_map, Relation.tuples, List.countP_map, List.countP_eq_length_filter]
        refine congrArg List.length (List.filter_congr fun row _ => ?_)
        rw [Function.comp_apply, Function.comp_apply, seated]
        cases relation.selects predicate row <;> rfl

end

/-! ## Statements with one condition -/

namespace Database

variable {database after : Database} {name : String} {relation : Relation} {predicate : Predicate}
variable {parameters : List Value} {count : Nat} {outcome : Outcome}

theorem answerPlan_eq (wellFormed : database.WellFormed) (plan : Plan) :
    database.answerPlan plan = (plan.run database.state.store).map fun done =>
      (database.withStore done.1, done.2) := by
  rw [answerPlan, runPlan_eq wellFormed]
  cases plan.run database.state.store <;> rfl

theorem authorize_local {type : Language.StatementType} :
    database.authorize .local type = .ok () := by
  rw [authorize]
  cases type.permission? <;> rfl

theorem name_of_relation (reached : database.Reachable)
    (found : database.state.store.relation name = .ok relation) : relation.schema.name = name :=
  reached.wellFormed.current.store.named _ (Store.relation_eq_ok_iff.mp found)

/-- A deletion of the rows of which a condition holds leaves all others in their order. -/
theorem answerPlan_delete (reached : database.Reachable)
    (found : database.state.store.relation name = .ok relation) (predicate : Predicate) :
    ∃ kept,
      database.answerPlan (.delete name (some predicate)) =
        .ok (database.withStore (database.state.store.holding name kept),
          .deleted (relation.rows.filter (relation.selects predicate)).length) ∧
      kept.schema = relation.schema ∧
      kept.rows = relation.rows.filter fun row => !relation.selects predicate row := by
  have wellFormed := reached.wellFormed
  have named := name_of_relation reached found
  obtain ⟨schema, rows, counted⟩ := relation.deleteAll_selected predicate
  refine ⟨(relation.deleteAll (some predicate)).1, ?_, schema, rows⟩
  rw [answerPlan_eq wellFormed, ← Store.replace_eq_holding ((congrArg Table.name schema).trans named)]
  simp only [Plan.run, found, ok_bind, counted]
  rfl

/-- An update of the rows of which a condition holds leaves all others as they are. -/
theorem answerPlan_update {assignments : List (Nat × Operand)} (reached : database.Reachable)
    (found : database.state.store.relation name = .ok relation)
    (ran : database.answerPlan (.update name (some predicate) assignments .abort) =
      .ok (after, outcome)) :
    ∃ renewed,
      after = database.withStore (database.state.store.holding name renewed) ∧
      outcome = .updated (relation.rows.filter (relation.selects predicate)).length ∧
      renewed.schema = relation.schema ∧
      renewed.rows = relation.rows.map fun row =>
        if relation.selects predicate row then
          relation.schema.row (relation.schema.assigned assignments (relation.schema.tuple row))
        else row := by
  have wellFormed := reached.wellFormed
  have present := Store.relation_eq_ok_iff.mp found
  have named := name_of_relation reached found
  rw [answerPlan_eq wellFormed] at ran
  simp only [Plan.run, found, ok_bind] at ran
  obtain ⟨done, updated, made⟩ := map_eq_ok_iff.mp ran
  obtain ⟨⟨renewed, count⟩, all, given⟩ := bind_eq_ok_iff.mp updated
  obtain rfl := pure_eq_ok_iff.mp given
  cases made
  obtain ⟨schema, rows, rfl⟩ :=
    updateAll_selected (wellFormed.current.store.relations _ present) all
  refine ⟨renewed, ?_, rfl, schema, rows⟩
  rw [Store.replace_eq_holding ((congrArg Table.name schema).trans named)]

variable {request : Request} {condition : String} {expression : Expression} {selected : RowSet}

theorem parseStatement_of_query (ran : database.query request = .ok (after, outcome)) :
    ∃ statement count, parseStatement request.sql = .ok (statement, count) := by
  obtain ⟨parsed, read, -, -⟩ | ⟨error, failed⟩ := database.perform_cases request
  · obtain ⟨⟨statement, count⟩, found, -⟩ := bind_eq_ok_iff.mp read
    exact ⟨statement, count, found⟩
  · rw [query_eq, failed] at ran
    cases ran

/-- What a query for the rows of a table that pass a condition tells of it. -/
theorem query_everyWhere (ran : database.query request = .ok (after, .rows selected))
    (reached : database.Reachable)
    (found : database.state.store.relation name = .ok relation)
    (asks : EndsWhere request.sql (queryTokens name) condition)
    (clean : (tokensOf condition).fault = none)
    (only : anyExpression ⟨(tokensOf condition).tokens, none, 0⟩ =
      .ok (expression, ⟨[], none, count⟩)) :
    count = request.parameters.length ∧ strayReal? request.parameters = none ∧ ∃ predicate,
      Predicate.ofExpression request.parameters (Scope.ofTable relation.schema none).resolve
        expression = .ok predicate ∧
      selected.rows = (relation.rows.filter (relation.selects predicate)).map
        relation.schema.tuple := by
  have typed : Language.statementOf .select
      ⟨queryTokens name ++ .keyword .«where» :: (tokensOf condition).tokens, none, 0⟩ =
      .ok (.select (.everyWhere name expression), ⟨[], none, count⟩) := by
    rw [Language.statementOf, Language.Reader.bind_ok (select_everyWhere only)]
    rfl
  have parsed : parseStatement request.sql = .ok (.select (.everyWhere name expression), count) :=
    parseStatement_of_tokens (asks.trans (congrArg _ clean)) rfl typed
  obtain ⟨checked, plan, set, planned, ran, -, same⟩ := query_select_eq_ok parsed ran
  cases same
  obtain ⟨predicate, resolved, rows⟩ :=
    rows_everyWhere found (name_of_relation reached found) planned ran
  simp only [check, bind_eq_ok_iff, guarded_eq_ok_iff] at checked
  obtain ⟨-, -, -, -, counted, proper⟩ := checked
  refine ⟨not_not.mp counted, ?_, predicate, resolved, rows.trans Relation.filter_tuples⟩
  cases stray : strayReal? request.parameters with
  | none => rfl
  | some x =>
      rw [stray] at proper
      cases proper

/-- A deletion for which a query with its condition goes well goes well, too. -/
theorem query_delete (reached : database.Reachable) (trusted : request.caller = .local)
    (found : database.state.store.relation name = .ok relation)
    (asks : EndsWhere request.sql (deletionTokens name) condition)
    (clean : (tokensOf condition).fault = none)
    (only : anyExpression ⟨(tokensOf condition).tokens, none, 0⟩ =
      .ok (expression, ⟨[], none, request.parameters.length⟩))
    (proper : strayReal? request.parameters = none)
    (resolved : Predicate.ofExpression request.parameters
      (Scope.ofTable relation.schema none).resolve expression = .ok predicate) :
    database.query request = database.answerPlan (.delete name (some predicate)) := by
  have typed : Language.statementOf .delete
      ⟨deletionTokens name ++ .keyword .«where» :: (tokensOf condition).tokens, none, 0⟩ =
      .ok (.delete ⟨name, some expression⟩, ⟨[], none, request.parameters.length⟩) := by
    rw [Language.statementOf, Language.Reader.bind_ok (delete_where only)]
    rfl
  have parsed : parseStatement request.sql =
      .ok (.delete ⟨name, some expression⟩, request.parameters.length) :=
    parseStatement_of_tokens (asks.trans (congrArg _ clean)) rfl typed
  have planned : planStatement ⟨database.state.store, request.parameters⟩
      (.delete ⟨name, some expression⟩) = .ok (.delete name (some predicate)) := by
    rw [planStatement, planDelete, Store.table_of_relation found, ok_bind, PlanContext.predicate?,
      PlanContext.predicate, resolved, name_of_relation reached found]
    rfl
  have changes : (Language.Statement.delete ⟨name, some expression⟩).ChangesRows := trivial
  rw [query_changes changes parsed, check_bound rfl proper, trusted, authorize_local, planned]
  rfl

/-- An update that goes well has been planned with the condition that a query has. -/
theorem query_update {earlier : List Value} {clause sets : List Language.Token}
    (ran : database.query request = .ok (after, outcome))
    (reached : database.Reachable)
    (found : database.state.store.relation name = .ok relation)
    (aborts : Aborts clause)
    (asks : EndsWhere request.sql (updateTokens clause name sets) condition)
    (given : request.parameters = earlier ++ parameters)
    (only : anyExpression ⟨(tokensOf condition).tokens, none, 0⟩ =
      .ok (expression, ⟨[], none, parameters.length⟩))
    (resolved : Predicate.ofExpression parameters
      (Scope.ofTable relation.schema none).resolve expression = .ok predicate) :
    ∃ body assignments,
      parseStatement request.sql = .ok (.update body, request.parameters.length) ∧
      body.assignments.mapM (planAssignment ⟨database.state.store, request.parameters⟩
        relation.schema (.ofTable relation.schema none)) = .ok assignments ∧
      database.answerPlan (.update name (some predicate) assignments .abort) =
        .ok (after, outcome) := by
  obtain ⟨statement, count, parsed⟩ := parseStatement_of_query ran
  obtain ⟨body, first, rfl, resolution, named, conditioned, total⟩ :=
    update_where aborts asks only parsed
  have changes : (Language.Statement.update body).ChangesRows := trivial
  rw [query_changes changes parsed] at ran
  obtain ⟨⟨⟩, checked, ran⟩ := bind_eq_ok_iff.mp ran
  obtain ⟨plan, planned, ran⟩ := bind_eq_ok_iff.mp ran
  simp only [check, bind_eq_ok_iff, guarded_eq_ok_iff] at checked
  obtain ⟨-, -, -, -, counted, -⟩ := checked
  have counted := not_not.mp counted
  obtain rfl : first = earlier.length := by
    rw [given, List.length_append] at counted
    omega
  have passing : PlanContext.predicate? ⟨database.state.store, request.parameters⟩
      (.ofTable relation.schema none) body.condition = .ok (some predicate) := by
    have later := (predicate_later earlier resolve_blind).eq_ok_iff.mp resolved
    rw [conditioned, PlanContext.predicate?, PlanContext.predicate, given, later]
    rfl
  rw [planStatement, planUpdate, named, Store.table_of_relation found, ok_bind] at planned
  dsimp only at planned
  rw [passing, ok_bind] at planned
  obtain ⟨assignments, assigned, made⟩ := bind_eq_ok_iff.mp planned
  obtain rfl := pure_eq_ok_iff.mp made
  rw [resolution, name_of_relation reached found] at ran
  exact ⟨body, assignments, counted ▸ parsed, assigned, ran⟩

/-- What a condition selects of a table is the same for every statement: if a query for the rows of
which it holds goes well, a deletion with it goes well, removes just these rows and leaves the others
in their order, and an update with it, if it goes well, changes just these rows in their places.
Both count the rows of the query. -/
theorem where_selects_alike {select : String}
    (ran : database.query { sql := select, parameters, caller := .local } =
      .ok (after, .rows selected))
    (reached : database.Reachable)
    (found : database.state.store.relation name = .ok relation)
    (read : Language.parseExpression condition = .ok expression)
    (asks : EndsWhere select (queryTokens name) condition) :
    ∃ predicate,
      Predicate.ofExpression parameters (Scope.ofTable relation.schema none).resolve expression =
        .ok predicate ∧
      selected.rows =
        (relation.rows.filter (relation.selects predicate)).map relation.schema.tuple ∧
      (∀ delete, EndsWhere delete (deletionTokens name) condition → ∃ kept,
        database.query { sql := delete, parameters, caller := .local } =
          .ok (database.withStore (database.state.store.holding name kept),
            .deleted selected.rows.length) ∧
        kept.schema = relation.schema ∧
        kept.rows = relation.rows.filter fun row => !relation.selects predicate row) ∧
      ∀ update clause sets earlier changed outcome, Aborts clause →
        EndsWhere update (updateTokens clause name sets) condition →
        database.query { sql := update, parameters := earlier ++ parameters, caller := .local } =
          .ok (changed, outcome) →
        ∃ body assignments renewed,
          parseStatement update = .ok (.update body, (earlier ++ parameters).length) ∧
          body.assignments.mapM (planAssignment ⟨database.state.store, earlier ++ parameters⟩
            relation.schema (.ofTable relation.schema none)) = .ok assignments ∧
          changed = database.withStore (database.state.store.holding name renewed) ∧
          outcome = .updated selected.rows.length ∧
          renewed.schema = relation.schema ∧
          renewed.rows = relation.rows.map fun row =>
            if relation.selects predicate row then
              relation.schema.row (relation.schema.assigned assignments (relation.schema.tuple row))
            else row := by
  obtain ⟨clean, count, only⟩ := Language.anyExpression_of_parse read
  obtain ⟨counts, proper, predicate, resolved, rows⟩ :=
    query_everyWhere ran reached found asks clean only
  obtain rfl : count = parameters.length := counts
  have counted : selected.rows.length =
      (relation.rows.filter (relation.selects predicate)).length := by
    rw [rows, List.length_map]
  refine ⟨predicate, resolved, rows, fun delete deletes => ?_, ?_⟩
  · have deleted : database.query { sql := delete, parameters, caller := .local } =
        database.answerPlan (.delete name (some predicate)) :=
      query_delete reached rfl found deletes clean only proper resolved
    rw [deleted, counted]
    exact answerPlan_delete reached found predicate
  · intro update clause sets earlier changed outcome aborts updates succeeded
    obtain ⟨body, assignments, parsed, assigned, succeeded⟩ :=
      query_update succeeded reached found aborts updates rfl only resolved
    rw [counted]
    obtain ⟨renewed, results⟩ := answerPlan_update reached found succeeded
    exact ⟨body, assignments, renewed, parsed, assigned, results⟩

/-- Of a row whose value is missing the condition is unknown. -/
theorem where_selects_alike_unknown :
    let database := fromTexts ["CREATE TABLE t (a INTEGER, b TEXT)",
      "INSERT INTO t (a, b) VALUES (1, 'x'), (NULL, 'y'), (5, 'z')"]
    let schema : Table :=
      { name := "t", indexes := []
        columns := [Table.implicitKey, Column.plain "a" .integer, Column.plain "b" .text] }
    let relation := Relation.build schema
      [schema.row [.integer 1, .integer 1, .text "x"], schema.row [.integer 2, .null, .text "y"],
        schema.row [.integer 3, .integer 5, .text "z"]] 4
    let deletion : Request :=
      { sql := "delete from \x22t\x22 -- all\n where t.a>?", parameters := [.integer 2]
        caller := .local }
    let update : Request :=
      { sql := "UPDATE OR abort t SET b = ? WHERE t.a > ?", parameters := [.text "w", .integer 2]
        caller := .local }
    ∃ predicate kept renewed assignments,
      [[.integer 3, .integer 5, .text "z"]] =
        (relation.rows.filter (relation.selects predicate)).map schema.tuple ∧
      database.query deletion =
        .ok (database.withStore (database.state.store.holding "t" kept), .deleted 1) ∧
      kept.rows = relation.rows.filter (fun row => !relation.selects predicate row) ∧
      database.query update =
        .ok (database.withStore (database.state.store.holding "t" renewed), .updated 1) ∧
      renewed.rows = relation.rows.map fun row =>
        if relation.selects predicate row then
          schema.row (schema.assigned assignments (schema.tuple row))
        else row := by
  intro database schema relation deletion update
  let query : Request :=
    { sql := "SELECT * FROM t WHERE t.a > ?", parameters := [.integer 2], caller := .local }
  have answered : (database.perform query).2 =
      .ok (.rows ⟨["id", "a", "b"], [[.integer 3, .integer 5, .text "z"]]⟩) := by decide +kernel
  have updated : (database.perform update).2 = .ok (.updated 1) := by decide +kernel
  have found : database.state.store.relation "t" = .ok relation := by decide +kernel
  have readable : (Language.parseExpression "t.a > ?").isOk = true := by decide +kernel
  have asks : EndsWhere query.sql (queryTokens "t") "t.a > ?" := by decide +kernel
  have deletes : EndsWhere deletion.sql (deletionTokens "t") "t.a > ?" := by decide +kernel
  have updates : EndsWhere update.sql (updateTokens [.keyword .or, .identifier "abort"] "t"
      [.identifier "b", .symbol .equal, .symbol .question]) "t.a > ?" := by decide +kernel
  have aborts : Aborts [.keyword .or, .identifier "abort"] := .inr ⟨_, rfl, by decide +kernel⟩
  have reached : database.Reachable := fromTexts_reachable
  obtain ⟨expression, read⟩ : ∃ expression,
      Language.parseExpression "t.a > ?" = .ok expression := by
    cases parsed : Language.parseExpression "t.a > ?" with
    | ok expression => exact ⟨expression, rfl⟩
    | error error =>
        rw [parsed] at readable
        cases readable
  obtain ⟨predicate, -, rows, deleted, changed⟩ :=
    where_selects_alike (query_of_perform answered) reached found read asks
  obtain ⟨kept, deleted, -, left⟩ := deleted deletion.sql deletes
  obtain ⟨body, assignments, renewed, -, -, same, -, -, changes⟩ :=
    changed update.sql _ _ [.text "w"] _ _ aborts updates (query_of_perform updated)
  exact ⟨predicate, kept, renewed, assignments, rows, deleted, left,
    same ▸ query_of_perform updated, changes⟩

end Database

end Coffer
