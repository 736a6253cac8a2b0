import Mathlib.Data.List.Nodup
import Coffer.Proofs.BuiltQuery
import Coffer.Proofs.StatementReading

namespace Coffer.Builder

/-! # Built statements

The text of a built statement reads back as the statement, and each value of its parameters goes
where the call that gave the value put a placeholder.
-/

open Language

variable {statement meant numbered : Statement} {values : List Value}

/-! ## Insertions -/

namespace Insert

/-- The source of an insertion with one more row; rows are passed over where there is a query. -/
def withRow (row : List Value) : InsertSource → InsertSource
  | .values rows => .values (rows ++ [row.map written])
  | .query select => .query select

/-- Whether an insertion is put together by calls, and what they mean with the values in their
places. A query has a table wherever it has joins. -/
inductive Means : Insert → Language.Insert → Prop where
  | into {table : String} (ascii : isAscii table = true) :
      Means (into table) { resolution := none, table, columns := none, source := .values [] }
  | columns {insert : Insert} {meant : Language.Insert} {names : List String}
      (means : Means insert meant) (ascii : ∀ name ∈ names, isAscii name = true) :
      Means { insert with columns := some names } { meant with columns := some names }
  | addRow {insert : Insert} {meant : Language.Insert} {row : List Value}
      (means : Means insert meant) :
      Means (insert.addRow row) { meant with source := withRow row meant.source }
  | query {insert : Insert} {meant : Language.Insert} {query : Query} {select : Select}
      (means : Means insert meant) (asks : query.Means select)
      (joined : query.select.source = none → query.joins = []) :
      Means { insert with query := some query } { meant with source := .query select }
  | resolution {insert : Insert} {meant : Language.Insert} {resolution : Resolution}
      (means : Means insert meant) :
      Means { insert with resolution := some resolution }
        { meant with resolution := some resolution }

/-- Where the rows of an insertion come from, as it is built and as it is meant. -/
def Supplies (insert : Insert) (source : InsertSource) : Prop :=
  match insert.query with
  | some query => ∃ select, source = .query select ∧ query.Means select ∧
      (query.select.source = none → query.joins = [])
  | none => source = .values (insert.rows.map (List.map written))

/-- What holds of an insertion and of what it means, whatever calls put it together. -/
structure Sound (insert : Insert) (meant : Language.Insert) : Prop where
  same : meant = { resolution := insert.resolution, table := insert.table
                   columns := insert.columns, source := meant.source }
  table : isAscii insert.table = true
  columns : ∀ names ∈ insert.columns, ∀ name ∈ names, isAscii name = true
  source : insert.Supplies meant.source

theorem Supplies.addRow {insert : Insert} {source : InsertSource} (supplies : insert.Supplies source)
    (row : List Value) : (insert.addRow row).Supplies (withRow row source) := by
  obtain ⟨table, columns, rows, query, resolution⟩ := insert
  cases query with
  | some query =>
      obtain ⟨select, rfl, asks⟩ := supplies
      exact ⟨select, rfl, asks⟩
  | none =>
      obtain rfl : source = .values (rows.map (List.map written)) := supplies
      change InsertSource.values _ = .values ((rows ++ [row]).map (List.map written))
      rw [List.map_append]
      rfl

theorem Means.sound {insert : Insert} {meant : Language.Insert} (means : insert.Means meant) :
    insert.Sound meant := by
  induction means with
  | into ascii => exact ⟨rfl, ascii, nofun, rfl⟩
  | @columns insert meant names _ ascii ih =>
      exact { ih with
        same := congrArg (fun insert : Language.Insert => { insert with columns := some names }) ih.same
        columns := fun _ same => Option.some.inj same ▸ ascii }
  | @addRow insert meant row _ ih =>
      exact { ih with
        same := congrArg (fun insert : Language.Insert =>
          { insert with source := withRow row meant.source }) ih.same
        source := ih.source.addRow row }
  | @query insert meant query select _ asks joined ih =>
      exact { ih with
        same := congrArg (fun insert : Language.Insert =>
          { insert with source := .query select }) ih.same
        source := ⟨select, rfl, asks, joined⟩ }
  | @resolution insert meant resolution _ ih =>
      exact { ih with
        same := congrArg (fun insert : Language.Insert =>
          { insert with resolution := some resolution }) ih.same }

end Insert

/-! ## Updates -/

namespace Update

/-- Whether an update is put together by calls, and what they mean with the values in their places.
No column is set twice. -/
inductive Means : Update → Language.Update → Prop where
  | of {table : String} (ascii : isAscii table = true) :
      Means (of table) { resolution := none, table, assignments := [], condition := none }
  | assign {update : Update} {meant : Language.Update} {name : String} {value : Value}
      (means : Means update meant) (ascii : isAscii name = true)
      (fresh : name ∉ update.assignments.map Prod.fst) :
      Means (update.assign name value)
        { meant with assignments := meant.assignments ++ [(name, written value)] }
  | addFilter {update : Update} {meant : Language.Update} {condition : Condition}
      {asked : Expression} (means : Means update meant) (filter : condition.Means asked) :
      Means (update.addFilter condition)
        { meant with condition := conjoined meant.condition asked }
  | resolution {update : Update} {meant : Language.Update} {resolution : Resolution}
      (means : Means update meant) :
      Means { update with resolution := some resolution }
        { meant with resolution := some resolution }

/-- What holds of an update and of what it means, whatever calls put it together. -/
structure Sound (update : Update) (meant : Language.Update) : Prop where
  same : meant = { resolution := update.resolution, table := update.table
                   assignments := update.assignments.map fun pair => (pair.1, written pair.2)
                   condition := meant.condition }
  table : isAscii update.table = true
  columns : ∀ pair ∈ update.assignments, isAscii pair.1 = true
  distinct : (update.assignments.map Prod.fst).Nodup
  filter : Option.Rel Condition.Means update.filter meant.condition

theorem Means.sound {update : Update} {meant : Language.Update} (means : update.Means meant) :
    update.Sound meant := by
  induction means with
  | of ascii => exact ⟨rfl, ascii, nofun, .nil, .none⟩
  | @assign update meant name value _ ascii fresh ih =>
      exact { ih with
        same := by
          rw [Update.assign, List.map_append]
          exact congrArg (fun update : Language.Update =>
            { update with assignments := update.assignments ++ [(name, written value)] }) ih.same
        columns := List.forall_mem_append.mpr ⟨ih.columns, List.forall_mem_singleton.mpr ascii⟩
        distinct := by
          rw [Update.assign, List.map_append]
          exact List.Nodup.append ih.distinct (List.nodup_singleton name) (by simpa using fresh) }
  | @addFilter update meant condition asked _ filter ih =>
      exact { ih with
        same := congrArg (fun update : Language.Update =>
          { update with condition := conjoined meant.condition asked }) ih.same
        filter := conjoined_means ih.filter filter }
  | @resolution update meant resolution _ ih =>
      exact { ih with
        same := congrArg (fun update : Language.Update =>
          { update with resolution := some resolution }) ih.same }

end Update

/-! ## Deletions -/

namespace Delete

/-- Whether a deletion is put together by calls, and what they mean with the values in their
places. -/
inductive Means : Delete → Language.Delete → Prop where
  | «from» {table : String} (ascii : isAscii table = true) :
      Means (Delete.from table) { table, condition := none }
  | addFilter {delete : Delete} {meant : Language.Delete} {condition : Condition}
      {asked : Expression} (means : Means delete meant) (filter : condition.Means asked) :
      Means (delete.addFilter condition)
        { meant with condition := conjoined meant.condition asked }

theorem Means.sound {delete : Delete} {meant : Language.Delete} (means : delete.Means meant) :
    meant.table = delete.table ∧ isAscii delete.table = true ∧
      Option.Rel Condition.Means delete.filter meant.condition := by
  induction means with
  | «from» ascii => exact ⟨rfl, ascii, .none⟩
  | addFilter _ filter ih => exact ⟨ih.1, ih.2.1, conjoined_means ih.2.2 filter⟩

end Delete

/-! ## Statements -/

/-- Whether a statement is put together by calls, and what they mean with the values in their
places. There is something to insert, with no empty row, and something to set. -/
inductive Prepared.Means : Prepared → Statement → Prop where
  | query {query : Query} {meant : Select} (means : query.Means meant)
      (joined : query.select.source = none → query.joins = []) :
      Means query.prepare (.select meant)
  | insert {insert : Insert} {meant : Language.Insert} (means : insert.Means meant)
      (filled : ∀ rows, meant.source = .values rows → rows ≠ [] ∧ ∀ row ∈ rows, row ≠ []) :
      Means insert.prepare (.insert meant)
  | update {update : Update} {meant : Language.Update} (means : update.Means meant)
      (assigned : meant.assignments ≠ []) : Means update.prepare (.update meant)
  | delete {delete : Delete} {meant : Language.Delete} (means : delete.Means meant) :
      Means delete.prepare (.delete meant)

/-- What is numbered is read from the text of what was built. -/
theorem parse_numbered (numbers : Numbers 0 values statement meant numbered)
    (readable : numbered.Readable) (clear : ∀ expression ∈ numbered.expressions, expression.Clear)
    (columns : numbered.columns = []) (legible : Legible numbered.marks) :
    parseStatement (Prepared.sql ⟨statement, values⟩) = .ok (numbered, values.length) ∧
      numbered.replaced (fun _ => placeholder) = statement ∧
      numbered.placeholders = List.range values.length ∧
      numbered.filled (literalsOf values) = meant := by
  have counted : numbered.placeholders = List.range' 0 values.length := numbers.placeholders
  have faithful : numbered.Faithful :=
    ⟨readable, fun expression member => (clear expression member).faithful, by simp [columns]⟩
  have consecutive : Consecutive 0 numbered.placeholders := by
    rw [Consecutive, counted, List.length_range']
  have read := parseStatement_render faithful legible consecutive
  have same : numbered.render = statement.render := by
    rw [← numbers.forgotten]
    exact Statement.render_renumbered.symm
  rw [same, counted, List.length_range'] at read
  exact ⟨read, numbers.forgotten, counted.trans List.range_eq_range'.symm,
    numbers.filled _ (gives_fillerOf [])⟩

/-! ## Numbered changes -/

theorem rows_numbers (rows : List (List Value)) (first : Nat) :
    ∃ numbered, Numbers first rows.flatten (rows.map (List.map fun _ => placeholder))
        (rows.map (List.map written)) numbered ∧
      (∀ row ∈ numbered, ∀ expression ∈ row, expression.Clear) ∧
      numbered.map List.length = rows.map List.length := by
  induction rows generalizing first with
  | nil => exact ⟨[], .nil, nofun, rfl⟩
  | cons row rest ih =>
      obtain ⟨numbered, numbers, clear, lengths⟩ := ih (first + row.length)
      refine ⟨(List.range' first row.length).map .parameter :: numbered, Numbers.listed.cons numbers,
        List.forall_mem_cons.mpr ⟨fun expression member => ?_, clear⟩, ?_⟩
      · obtain ⟨index, -, rfl⟩ := List.mem_map.mp member
        exact .parameter
      · rw [List.map_cons, List.map_cons, lengths, List.length_map, List.length_range']

theorem assignments_numbers (assignments : List (String × Value)) (first : Nat) :
    ∃ numbered, Numbers first (assignments.map Prod.snd)
        (assignments.map fun pair => (pair.1, placeholder))
        (assignments.map fun pair => (pair.1, written pair.2)) numbered ∧
      (∀ assignment ∈ numbered, assignment.2.Clear) ∧
      numbered.map Prod.fst = assignments.map Prod.fst := by
  induction assignments generalizing first with
  | nil => exact ⟨[], .nil, nofun, rfl⟩
  | cons pair rest ih =>
      obtain ⟨numbered, numbers, clear, names⟩ := ih (first + 1)
      have name : Numbers first [] pair.1 pair.1 pair.1 := .plain (fun _ => rfl) rfl
      refine ⟨(pair.1, .parameter first) :: numbered, (name.both .placeholder).cons numbers,
        List.forall_mem_cons.mpr ⟨.parameter, clear⟩, ?_⟩
      rw [List.map_cons, List.map_cons, names]

theorem placeholders_rows {rows : List (List Expression)} :
    rows.flatten.flatMap Expression.placeholders = Fillable.placeholders rows := by
  rw [List.flatten_eq_flatMap, List.flatMap_assoc]
  rfl

theorem placeholders_update {assignments : List (String × Expression)}
    {condition : Option Expression} :
    (assignments.map Prod.snd ++ condition.toList).flatMap Expression.placeholders =
      Fillable.placeholders assignments ++ Fillable.placeholders condition := by
  rw [List.flatMap_append, List.flatMap_map]
  rfl

/-- Rows that are numbered are as long as those that are meant. -/
theorem readable_rows {rows : List (List Value)} {numbered : List (List Expression)}
    (lengths : numbered.map List.length = rows.map List.length)
    (some : rows.map (List.map written) ≠ [])
    (filled : ∀ row ∈ rows.map (List.map written), row ≠ []) :
    (InsertSource.values numbered).Readable := by
  constructor
  · rintro rfl
    exact some (List.map_eq_nil_iff.mpr (List.map_eq_nil_iff.mp lengths.symm))
  · rintro _ member rfl
    have empty : 0 ∈ rows.map List.length := lengths ▸ List.mem_map_of_mem member
    obtain ⟨row, listed, none⟩ := List.mem_map.mp empty
    obtain rfl := List.length_eq_zero_iff.mp none
    exact filled [] (List.mem_map_of_mem listed) rfl

/-- Whether the text of what was built reads as the statement with its placeholders numbered in
order. There are as many of them as values, and with the values in their places the statement is
what was meant. -/
def ReadsNumbered (prepared : Prepared) (meant : Statement) : Prop :=
  ∃ numbered, parseStatement prepared.sql = .ok (numbered, prepared.parameters.length) ∧
    numbered.replaced (fun _ => placeholder) = prepared.statement ∧
    numbered.placeholders = List.range prepared.parameters.length ∧
    numbered.filled (literalsOf prepared.parameters) = meant

theorem query_reads {query : Query} {meant : Select} (means : query.Means meant)
    (joined : query.select.source = none → query.joins = []) :
    ReadsNumbered query.prepare (.select meant) := by
  obtain ⟨numbered, numbers, found, clear⟩ := means.sound.numbers joined 0
  have whole := numbers.map Statement.select (fun _ _ => rfl) fun _ => rfl
  exact ⟨_, parse_numbered whole found.readable clear rfl (legible_select found clear)⟩

theorem insert_reads {insert : Insert} {meant : Language.Insert} (means : insert.Means meant)
    (filled : ∀ rows, meant.source = .values rows → rows ≠ [] ∧ ∀ row ∈ rows, row ≠ []) :
    ReadsNumbered insert.prepare (.insert meant) := by
  obtain ⟨same, table, columns, source⟩ := means.sound
  obtain ⟨name, targets, rows, query, resolution⟩ := insert
  cases query with
  | some query =>
      obtain ⟨select, form, asks, joined⟩ := source
      obtain ⟨numbered, numbers, found, clear⟩ := asks.sound.numbers joined 0
      rw [same, form]
      have whole := numbers.map
        (fun select => Statement.insert { resolution, table := name, columns := targets
                                          source := .query select })
        (fun _ _ => rfl) fun _ => rfl
      have legible : Legible (InsertSource.query numbered).marks :=
        legible_cons.mpr ⟨rfl, legible_select found clear⟩
      exact ⟨_, parse_numbered whole found.readable clear rfl (legible_insert table columns legible)⟩
  | none =>
      have form : meant.source = .values (rows.map (List.map written)) := source
      obtain ⟨numbered, numbers, clear, lengths⟩ := rows_numbers rows 0
      obtain ⟨some, filled⟩ := filled _ form
      rw [same, form]
      have whole := numbers.map
        (fun rows => Statement.insert { resolution, table := name, columns := targets
                                        source := .values rows })
        (fun _ _ => rfl) fun rows => placeholders_rows
      refine ⟨_, parse_numbered whole (readable_rows lengths some filled)
        (fun expression member => ?_) rfl (legible_insert table columns (legible_values clear))⟩
      obtain ⟨row, listed, within⟩ := List.mem_flatten.mp member
      exact clear row listed expression within

theorem update_reads {update : Update} {meant : Language.Update} (means : update.Means meant)
    (assigned : meant.assignments ≠ []) : ReadsNumbered update.prepare (.update meant) := by
  obtain ⟨same, table, columns, distinct, filter⟩ := means.sound
  obtain ⟨assignments, numbers, clear, names⟩ := assignments_numbers update.assignments 0
  obtain ⟨condition, conditionNumbers, clearCondition⟩ := Query.condition_numbers filter (0 + _)
  have whole := numbers.pair
    (fun assignments condition =>
      Statement.update { resolution := update.resolution, table := update.table, assignments, condition })
    conditionNumbers (fun _ _ _ => rfl) fun _ _ => placeholders_update
  have some : assignments ≠ [] := by
    rintro rfl
    rw [same, List.map_eq_nil_iff.mp names.symm] at assigned
    exact assigned rfl
  have ascii : ∀ assignment ∈ assignments, isAscii assignment.1 = true := by
    have named : ∀ name ∈ update.assignments.map Prod.fst, isAscii name = true :=
      List.forall_mem_map.mpr columns
    exact List.forall_mem_map.mp (names ▸ named)
  have legible : Legible (Statement.marks (.update
      { resolution := update.resolution, table := update.table, assignments, condition })) :=
    legible_update table (fun assignment member => ⟨ascii assignment member, clear assignment member⟩)
      clearCondition
  rw [same]
  exact ⟨_, parse_numbered whole ⟨some, names ▸ distinct⟩
    (List.forall_mem_append.mpr ⟨List.forall_mem_map.mpr clear, clearCondition⟩) rfl legible⟩

theorem delete_reads {delete : Delete} {meant : Language.Delete} (means : delete.Means meant) :
    ReadsNumbered delete.prepare (.delete meant) := by
  obtain ⟨same, table, filter⟩ := means.sound
  obtain ⟨numbered, numbers, clear⟩ := Query.condition_numbers filter 0
  have whole := numbers.map (fun condition => Statement.delete { table := delete.table, condition })
    (fun _ _ => rfl) fun _ => rfl
  obtain ⟨name, condition⟩ := meant
  obtain rfl : name = delete.table := same
  exact ⟨_, parse_numbered whole trivial clear rfl (legible_delete table clear)⟩

/-- The text of a statement reads back as the statement, with each value where it was meant to go,
in whatever order the statement was put together. -/
theorem Prepared.parse_sql {prepared : Prepared} (means : prepared.Means meant) :
    ReadsNumbered prepared meant := by
  cases means with
  | query means joined => exact query_reads means joined
  | insert means filled => exact insert_reads means filled
  | update means assigned => exact update_reads means assigned
  | delete means => exact delete_reads means

/-- A condition that is given before a table is joined has its values after those of the join. -/
theorem joined_after_filter :
    let age := (Condition.isIn "u.age" [.integer 7, .integer 8]).either (.notNull "u.mail")
    let site := (Condition.sameColumns "u.site" "s.id").both (.compare .equal "s.city" (.text "?"))
    let users := (((Query.ofColumns ["u.id"]).addFilter age).join
      ⟨.left, ⟨"sites", some "s"⟩, some site⟩).source ⟨"users", some "u"⟩
    users.prepare.parameters = [.text "?", .integer 7, .integer 8] ∧
    ∃ numbered, parseStatement users.prepare.sql = .ok (numbered, 3) ∧
      numbered.placeholders = [0, 1, 2] ∧
      (numbered.filled (literalsOf users.prepare.parameters)).render =
        "SELECT u.id FROM users AS u LEFT JOIN sites AS s ON u.site = s.id AND s.city = '?'" ++
          " WHERE u.age IN (7, 8) OR NOT u.mail IS NULL" := by
  intro age site users
  have ageMeans : age.Means _ :=
    .either (.isIn (by decide +kernel) (List.cons_ne_nil _ _)) (.negate (.isNull (by decide +kernel)))
  have siteMeans : site.Means _ :=
    .both (.sameColumns (by decide +kernel) (by decide +kernel)) (.compare (by decide +kernel))
  have qualified : column "u.id" = .field (some "u") "id" := rfl
  have selectable : Query.Selectable "u.id" := ⟨by decide +kernel, by simp [qualified]⟩
  have means : users.Means _ :=
    .source (.join (.addFilter (.ofColumns (List.forall_mem_singleton.mpr selectable)) ageMeans)
      (.join ⟨by decide +kernel, by decide +kernel⟩ (by decide) (.some siteMeans)))
      ⟨by decide +kernel, by decide +kernel⟩
  obtain ⟨numbered, read, -, counted, filled⟩ := Prepared.parse_sql (.query means nofun)
  refine ⟨rfl, numbered, read, counted, ?_⟩
  rw [filled]
  decide +kernel

end Coffer.Builder
