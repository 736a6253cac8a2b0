import Mathlib.Data.List.Forall2
import Coffer.Proofs.BuiltCondition
import Coffer.Proofs.SelectReading

namespace Coffer.Builder

/-! # Built queries

Whatever the order of the calls that build a query, its values stand in the order of their
placeholders: those of the joins, of the filter, and of the condition on groups.
-/

open Language

variable {name : String} {query : Query} {meant : Select} {condition : Condition}
variable {filter : Option Condition} {asked : Option Expression} {bound : BoundJoin} {join : Join}

/-- A condition on top of one that may be there already. -/
def conjoined (former : Option Expression) (condition : Expression) : Option Expression :=
  match former with
  | some former => some (.binary .and former condition)
  | none => some condition

theorem conjoined_means (former : Option.Rel Condition.Means filter asked)
    {meant : Expression} (means : condition.Means meant) :
    Option.Rel Condition.Means (condition.onTopOf filter) (conjoined asked meant) := by
  cases former with
  | none => exact .some means
  | some former => exact .some (.both former means)

/-- Whether a joined table means a join with the values in their places: only cross joins have no
condition. -/
inductive BoundJoin.Means : BoundJoin → Join → Prop where
  | join {kind : JoinKind} {table : TableReference} {condition : Option Condition}
      {meant : Option Expression} (named : table.Named fun token => token.isAscii = true)
      (suited : kind = .cross ↔ condition = none)
      (conditioned : Option.Rel Condition.Means condition meant) :
      Means ⟨kind, table, condition⟩ ⟨kind, table, meant⟩

namespace Query

/-- Whether a name can be selected: it is in ASCII and not the star of a table. -/
structure Selectable (name : String) : Prop where
  ascii : isAscii name = true
  starless : ∀ relation, column name ≠ .field (some relation) "*"

/-- Whether a query is put together by calls, and what they mean with the values in their places. -/
inductive Means : Query → Select → Prop where
  | ofColumns {columns : List String} (selectable : ∀ name ∈ columns, Selectable name) :
      Means (ofColumns columns) (ofColumns columns).select
  | source {query : Query} {meant : Select} {table : TableReference} (means : Means query meant)
      (named : table.Named fun token => token.isAscii = true) :
      Means (query.source table) { meant with source := some table }
  | distinct {query : Query} {meant : Select} (means : Means query meant) :
      Means query.distinct { meant with distinct := true }
  | columnAs {query : Query} {meant : Select} {name asName : String} (means : Means query meant)
      (selectable : Selectable name) (ascii : isAscii asName = true) :
      Means (query.columnAs name asName)
        { meant with items := meant.items ++ [.expression (column name) (some asName)] }
  | aggregate {query : Query} {meant : Select} {function name : String} {asName : Option String}
      (means : Means query meant) (known : Text.upperCase function ∈ aggregateNames)
      (starred : name = "*" → Text.upperCase function = "COUNT") (ascii : isAscii name = true)
      (named : ∀ label ∈ asName, isAscii label = true) :
      Means (query.aggregate function name asName)
        { meant with
          items := meant.items ++ [.expression
            (.call (Text.upperCase function) [if name = "*" then .star else column name]) asName] }
  | join {query : Query} {meant : Select} {bound : BoundJoin} {join : Join}
      (means : Means query meant) (joined : bound.Means join) :
      Means (query.join bound) { meant with joins := meant.joins ++ [join] }
  | addFilter {query : Query} {meant : Select} {condition : Condition} {asked : Expression}
      (means : Means query meant) (filter : condition.Means asked) :
      Means (query.addFilter condition)
        { meant with condition := conjoined meant.condition asked }
  | addHaving {query : Query} {meant : Select} {condition : Condition} {asked : Expression}
      (means : Means query meant) (having : condition.Means asked) :
      Means (query.addHaving condition) { meant with having := conjoined meant.having asked }
  | groupBy {query : Query} {meant : Select} {name : String} (means : Means query meant)
      (ascii : isAscii name = true) :
      Means (query.groupBy name) { meant with grouping := meant.grouping ++ [column name] }
  | orderBy {query : Query} {meant : Select} {name : String} {descending : Bool}
      (means : Means query meant) (ascii : isAscii name = true) :
      Means (query.orderBy name descending)
        { meant with ordering := meant.ordering ++ [{ key := column name, descending }] }
  | limit {query : Query} {meant : Select} {count : Nat} (means : Means query meant)
      (fits : count < Nat.pow 2 64) : Means (query.limit count) { meant with limit := some count }
  | offset {query : Query} {meant : Select} {count : Nat} (means : Means query meant)
      (fits : count < Nat.pow 2 64) : Means (query.offset count) { meant with offset := some count }

/-! ## Parts without placeholders -/

/-- An expression without placeholders that reads back as it is written. -/
structure Fixed (expression : Expression) : Prop where
  still : ∀ replacement, expression.replaced replacement = expression
  none : expression.placeholders = []
  clear : expression.Clear

theorem fixed_column (ascii : isAscii name = true) : Fixed (column name) := by
  have clear := column_clear ascii
  obtain ⟨relation, rest, form⟩ := column_field name
  rw [form] at clear ⊢
  exact ⟨fun _ => rfl, rfl, clear⟩

theorem aggregateNames_plain : ∀ function ∈ aggregateNames,
    Text.upperCase function = function ∧ isPlainWord function = true ∧ isAscii function = true := by
  decide +kernel

/-- A call of an aggregate function on a column, or of COUNT on the star. -/
theorem fixed_call {function : String} {argument : Expression} (known : function ∈ aggregateNames)
    (suited : Fixed argument ∨ argument = .star ∧ function = "COUNT") :
    Fixed (.call function [argument]) := by
  obtain ⟨same, word, ascii⟩ := aggregateNames_plain function known
  have still (replacement : Nat → Expression) : argument.replaced replacement = argument := by
    rcases suited with fixed | ⟨rfl, -⟩
    · exact fixed.still replacement
    · rfl
  have found : argument.FoundWithin (fun token => token.isAscii = true) function :=
    suited.imp_left fun fixed => fixed.clear.found
  refine ⟨fun replacement => ?_, ?_, .call ⟨function, ascii, same.symm⟩ ?_, ?_⟩
  · rw [Expression.replaced, Expression.replacedList_eq, List.map_singleton, still]
  · rw [Expression.placeholders_call, List.flatMap_singleton]
    rcases suited with fixed | ⟨rfl, -⟩
    · exact fixed.none
    · rfl
  · exact List.forall_mem_singleton.mpr found
  · refine Expression.forall_parts_call.mpr ⟨word, List.forall_mem_singleton.mpr ?_⟩
    rcases suited with fixed | ⟨rfl, -⟩
    · exact fixed.clear.intact
    · exact List.forall_mem_singleton.mpr rfl

/-- An item of a select list without placeholders that reads back as it is written. -/
structure FixedItem (item : SelectItem) : Prop where
  still : ∀ replacement, item.replaced replacement = item
  none : item.expressions.flatMap Expression.placeholders = []
  readable : item.Readable
  named : item.Named fun token => token.isAscii = true
  clear : ∀ expression ∈ item.expressions, expression.Clear

theorem fixed_every : FixedItem .every :=
  ⟨fun _ => rfl, rfl, nofun, trivial, nofun⟩

theorem Fixed.item {value : Expression} {asName : Option String} (fixed : Fixed value)
    (starless : ∀ relation, value ≠ .field (some relation) "*")
    (named : ∀ label ∈ asName, isAscii label = true) : FixedItem (.expression value asName) := by
  refine ⟨fun replacement => ?_, ?_, ?_, named, List.forall_mem_singleton.mpr fixed.clear⟩
  · rw [SelectItem.replaced, fixed.still]
  · rw [SelectItem.expressions, List.flatMap_singleton, fixed.none]
  · rintro relation _ ⟨⟩
    exact starless relation rfl

theorem fixed_item (selectable : Selectable name) : FixedItem (item name) := by
  rw [item]
  split
  · exact fixed_every
  · exact (fixed_column selectable.ascii).item selectable.starless nofun

/-! ## Queries as they are built -/

/-- What holds of a query and of what it means, whatever calls put it together. -/
structure Sound (query : Query) (meant : Select) : Prop where
  same : meant = { query.select with
    joins := meant.joins, condition := meant.condition, having := meant.having }
  joins : List.Forall₂ BoundJoin.Means query.joins meant.joins
  filter : Option.Rel Condition.Means query.filter meant.condition
  having : Option.Rel Condition.Means query.having meant.having
  listed : query.select.items ≠ []
  items : ∀ item ∈ query.select.items, FixedItem item
  grouping : ∀ key ∈ query.select.grouping, Fixed key
  ordering : ∀ term ∈ query.select.ordering, Fixed term.key
  source : ∀ table ∈ query.select.source, table.Named fun token => token.isAscii = true
  limit : ∀ count ∈ query.select.limit, count < Nat.pow 2 64
  offset : ∀ count ∈ query.select.offset, count < Nat.pow 2 64

theorem Sound.addItem (sound : query.Sound meant) {item : SelectItem} (fixed : FixedItem item) :
    (query.addItem item).Sound { meant with items := meant.items ++ [item] } :=
  { sound with
    same := congrArg (fun select : Select => { select with items := select.items ++ [item] }) sound.same
    listed := List.append_ne_nil_of_right_ne_nil _ (List.cons_ne_nil _ _)
    items := List.forall_mem_append.mpr ⟨sound.items, List.forall_mem_singleton.mpr fixed⟩ }

theorem Means.sound (means : query.Means meant) : query.Sound meant := by
  induction means with
  | @ofColumns columns selectable =>
      refine ⟨rfl, .nil, .none, .none, ?_, ?_, nofun, nofun, nofun, nofun, nofun⟩
      · rw [Query.ofColumns]
        split
        · exact List.cons_ne_nil _ _
        · rename_i some
          exact fun empty => some (List.isEmpty_iff.mpr (List.map_eq_nil_iff.mp empty))
      · rw [Query.ofColumns]
        split
        · exact List.forall_mem_singleton.mpr fixed_every
        · exact List.forall_mem_map.mpr fun name member => fixed_item (selectable name member)
  | @source query meant table _ named ih =>
      exact { ih with
        same := congrArg (fun select : Select => { select with source := some table }) ih.same
        source := fun _ same => Option.some.inj same ▸ named }
  | distinct _ ih =>
      exact { ih with
        same := congrArg (fun select : Select => { select with distinct := true }) ih.same }
  | @columnAs query meant name asName _ selectable ascii ih =>
      have fixed : FixedItem (.expression (column name) (some asName)) :=
        (fixed_column selectable.ascii).item selectable.starless
          fun _ same => Option.some.inj same ▸ ascii
      exact ih.addItem fixed
  | @aggregate query meant function name asName _ known starred ascii named ih =>
      have suited : Fixed (if name = "*" then .star else column name) ∨
          (if name = "*" then Expression.star else column name) = .star ∧
            Text.upperCase function = "COUNT" := by
        by_cases star : name = "*"
        · exact .inr ⟨if_pos star, starred star⟩
        · rw [if_neg star]
          exact .inl (fixed_column ascii)
      exact ih.addItem ((fixed_call known suited).item nofun named)
  | @join query meant bound join _ joined ih =>
      exact { ih with
        same := congrArg (fun select : Select => { select with joins := meant.joins ++ [join] }) ih.same
        joins := List.rel_append ih.joins (.cons joined .nil) }
  | @addFilter query meant condition asked _ filter ih =>
      exact { ih with
        same := congrArg (fun select : Select =>
          { select with condition := conjoined meant.condition asked }) ih.same
        filter := conjoined_means ih.filter filter }
  | @addHaving query meant condition asked _ having ih =>
      exact { ih with
        same := congrArg (fun select : Select =>
          { select with having := conjoined meant.having asked }) ih.same
        having := conjoined_means ih.having having }
  | @groupBy query meant name _ ascii ih =>
      exact { ih with
        same := congrArg (fun select : Select =>
          { select with grouping := select.grouping ++ [column name] }) ih.same
        grouping := List.forall_mem_append.mpr
          ⟨ih.grouping, List.forall_mem_singleton.mpr (fixed_column ascii)⟩ }
  | @orderBy query meant name descending _ ascii ih =>
      exact { ih with
        same := congrArg (fun select : Select =>
          let term : OrderTerm := { key := column name, descending }
          { select with ordering := select.ordering ++ [term] }) ih.same
        ordering := List.forall_mem_append.mpr
          ⟨ih.ordering, List.forall_mem_singleton.mpr (fixed_column ascii)⟩ }
  | @limit query meant count _ fits ih =>
      exact { ih with
        same := congrArg (fun select : Select => { select with limit := some count }) ih.same
        limit := fun _ same => Option.some.inj same ▸ fits }
  | @offset query meant count _ fits ih =>
      exact { ih with
        same := congrArg (fun select : Select => { select with offset := some count }) ih.same
        offset := fun _ same => Option.some.inj same ▸ fits }

/-! ## Numbered queries -/

theorem condition_numbers (means : Option.Rel Condition.Means filter asked) (first : Nat) :
    ∃ numbered, Numbers first (valuesOf filter) (expression? filter) asked numbered ∧
      ∀ expression ∈ numbered.toList, expression.Clear := by
  cases means with
  | none => exact ⟨none, .plain (fun _ => rfl) rfl, nofun⟩
  | @some condition meant means =>
      obtain ⟨numbered, numbers, clear⟩ := means.numbers first
      refine ⟨some numbered, ?_, List.forall_mem_singleton.mpr clear⟩
      exact numbers.map some (fun _ _ => rfl) fun _ => List.flatMap_singleton _ _

/-- A join that reads back as it is written. -/
structure ClearJoin (join : Join) : Prop where
  named : join.table.Named fun token => token.isAscii = true
  suited : join.kind = .cross ↔ join.condition = none
  clear : ∀ expression ∈ join.condition.toList, expression.Clear

theorem join_numbers (means : bound.Means join) (first : Nat) :
    ∃ numbered, Numbers first (valuesOf bound.condition)
      { kind := bound.kind, table := bound.table, condition := expression? bound.condition }
      join numbered ∧ ClearJoin numbered := by
  obtain @⟨kind, table, condition, meant, named, suited, conditioned⟩ := means
  obtain ⟨numbered, numbers, clear⟩ := condition_numbers conditioned first
  refine ⟨⟨kind, table, numbered⟩, ?_, named, suited.trans ?_, clear⟩
  · exact numbers.map (Join.mk kind table) (fun _ _ => rfl) fun _ => rfl
  · have same : numbered = none ↔ expression? condition = none := by
      rw [← numbers.forgotten]
      exact Option.map_eq_none_iff.symm
    rw [same, expression?, Option.map_eq_none_iff]

theorem joins_numbers {bounds : List BoundJoin} {joins : List Join}
    (means : List.Forall₂ BoundJoin.Means bounds joins) (first : Nat) :
    ∃ numbered, Numbers first (bounds.flatMap fun bound => valuesOf bound.condition)
      (bounds.map fun bound => { kind := bound.kind, table := bound.table
                                 condition := expression? bound.condition })
      joins numbered ∧ ∀ join ∈ numbered, ClearJoin join := by
  induction means generalizing first with
  | nil => exact ⟨[], .nil, nofun⟩
  | @cons bound join bounds joins means _ ih =>
      obtain ⟨numbered, numbers, clear⟩ := join_numbers means first
      obtain ⟨rest, others, further⟩ := ih (first + (valuesOf bound.condition).length)
      exact ⟨numbered :: rest, numbers.cons others, List.forall_mem_cons.mpr ⟨clear, further⟩⟩

/-- The query of which everything but the conditions is known. -/
def withConditions (query : Query) (parts : List Join × Option Expression × Option Expression) :
    Select :=
  { query.select with joins := parts.1, condition := parts.2.1, having := parts.2.2 }

theorem map_still {α : Type} {change : α → α} {items : List α}
    (still : ∀ item ∈ items, change item = item) : items.map change = items :=
  (List.map_congr_left still).trans (List.map_id items)

theorem Sound.withConditions_replaced (sound : query.Sound meant)
    (replacement : Nat → Expression) (parts : List Join × Option Expression × Option Expression) :
    (query.withConditions parts).replaced replacement =
      query.withConditions (Fillable.replaced replacement parts) := by
  have items : query.select.items.map (SelectItem.replaced replacement) = query.select.items :=
    map_still fun item member => (sound.items item member).still replacement
  have grouping : query.select.grouping.map (Expression.replaced replacement) =
      query.select.grouping :=
    map_still fun key member => (sound.grouping key member).still replacement
  have ordering : query.select.ordering.map (OrderTerm.replaced replacement) =
      query.select.ordering :=
    map_still fun term member => by
      rw [OrderTerm.replaced, (sound.ordering term member).still replacement]
  rw [Select.replaced, withConditions, items, grouping, ordering]
  rfl

theorem Sound.withConditions_placeholders (sound : query.Sound meant)
    (parts : List Join × Option Expression × Option Expression) :
    Fillable.placeholders (query.withConditions parts) = Fillable.placeholders parts := by
  have items : (query.select.items.flatMap fun item =>
      item.expressions.flatMap Expression.placeholders) = [] :=
    List.flatMap_eq_nil_iff.mpr fun item member => (sound.items item member).none
  have grouping : query.select.grouping.flatMap Expression.placeholders = [] :=
    List.flatMap_eq_nil_iff.mpr fun key member => (sound.grouping key member).none
  have ordering : (query.select.ordering.flatMap fun term => term.key.placeholders) = [] :=
    List.flatMap_eq_nil_iff.mpr fun term member => (sound.ordering term member).none
  change (query.withConditions parts).expressions.flatMap Expression.placeholders = _
  rw [placeholders_select, withConditions]
  dsimp only
  rw [items, grouping, ordering, List.nil_append, List.nil_append, List.append_nil]
  rfl

/-- A query means the same with its placeholders numbered, and reads back so. -/
theorem Sound.numbers (sound : query.Sound meant)
    (joined : query.select.source = none → query.joins = []) (first : Nat) :
    ∃ numbered, Numbers first query.values query.toSelect meant numbered ∧
      (numbered.Found fun token => token.isAscii = true) ∧
      ∀ expression ∈ numbered.expressions, expression.Clear := by
  obtain ⟨joins, joinNumbers, clearJoins⟩ := joins_numbers sound.joins first
  obtain ⟨filter, filterNumbers, clearFilter⟩ := condition_numbers sound.filter (first + _)
  obtain ⟨having, havingNumbers, clearHaving⟩ := condition_numbers sound.having (first + _ + _)
  have numbers := (joinNumbers.both (filterNumbers.both havingNumbers)).map query.withConditions
    sound.withConditions_replaced sound.withConditions_placeholders
  refine ⟨query.withConditions (joins, filter, having), ?_, ?_, ?_⟩
  · rw [sound.same]
    exact numbers
  · have unjoined : query.select.source = none → joins = [] := by
      intro absent
      have forgotten := joinNumbers.forgotten
      rw [joined absent] at forgotten
      exact List.map_eq_nil_iff.mp forgotten
    exact {
      readable := {
        listed := sound.listed
        items := fun item member => (sound.items item member).readable
        unjoined
        joins := fun join member => (clearJoins join member).suited
        limit := sound.limit
        offset := sound.offset }
      items := fun item member => (sound.items item member).named
      source := sound.source
      joins := fun join member => (clearJoins join member).named }
  · simp only [Select.expressions, List.forall_mem_append, List.forall_mem_flatMap,
      List.forall_mem_map]
    exact ⟨fun item member => (sound.items item member).clear,
      fun join member => (clearJoins join member).clear, clearFilter,
      fun key member => (sound.grouping key member).clear, clearHaving,
      fun term member => (sound.ordering term member).clear⟩

end Query

end Coffer.Builder
