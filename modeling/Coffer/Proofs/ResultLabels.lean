import Coffer.Proofs.Bounding
import Mathlib.Data.List.Dedup

namespace Coffer

/-! # Labels of results

A row that is named by its labels keeps a value for each column where the labels are distinct,
and loses one where they are not. A label that was there before is replaced, but what replaces it
is not compared with the other labels.
-/

open Coffer.Language (Select parseStatement)

/-! ## Labels of the select list -/

section Labels

variable {earlier : List String} {items : List Labelled} {label : String}

/-- The labels that stay as they are, given the labels of the columns before. -/
def keptLabels (earlier : List String) : List Labelled → List String
  | [] => []
  | column :: rest =>
    let later := keptLabels (column.label :: earlier) rest
    if column.label ∈ earlier then later else column.label :: later

/-- What the other labels are replaced by. -/
def replacedLabels (earlier : List String) : List Labelled → List String
  | [] => []
  | column :: rest =>
    let later := replacedLabels (column.label :: earlier) rest
    if column.label ∈ earlier then
      distinctLabel column (earlier.count column.label) :: later
    else later

theorem labelled_perm :
    ((labelled earlier items).map Prod.snd).Perm
      (keptLabels earlier items ++ replacedLabels earlier items) := by
  induction items generalizing earlier with
  | nil => exact .refl _
  | cons column rest ih =>
      simp only [labelled, List.map_cons, keptLabels, replacedLabels]
      by_cases repeated : column.label ∈ earlier
      · simp only [if_pos repeated]
        exact (ih.cons _).trans List.perm_middle.symm
      · simp only [if_neg repeated, List.count_eq_zero_of_not_mem repeated, distinctLabel]
        exact ih.cons _

theorem mem_keptLabels :
    label ∈ keptLabels earlier items ↔ label ∈ items.map Labelled.label ∧ label ∉ earlier := by
  induction items generalizing earlier with
  | nil => simp [keptLabels]
  | cons column rest ih =>
      rw [keptLabels]
      split <;> simp only [List.mem_cons, List.map_cons, ih] <;> grind

theorem keptLabels_nodup : (keptLabels earlier items).Nodup := by
  induction items generalizing earlier with
  | nil => exact .nil
  | cons column rest ih =>
      rw [keptLabels]
      split
      · exact ih
      · refine List.nodup_cons.mpr ⟨fun member => ?_, ih⟩
        exact (mem_keptLabels.mp member).2 List.mem_cons_self

/-- Labels come out distinct where what replaces them is so, and is none of the labels that
were there. -/
theorem labelled_nodup_iff :
    ((labelled [] items).map Prod.snd).Nodup ↔
      (replacedLabels [] items).Nodup ∧
        ∀ label ∈ replacedLabels [] items, label ∉ items.map Labelled.label := by
  rw [labelled_perm.nodup_iff, List.nodup_append, and_iff_right keptLabels_nodup]
  refine and_congr_right fun _ => ⟨fun apart label replaced kept => ?_, ?_⟩
  · exact apart label (mem_keptLabels.mpr ⟨kept, List.not_mem_nil⟩) label replaced rfl
  · rintro apart label kept _ replaced rfl
    exact apart label replaced (mem_keptLabels.mp kept).1

end Labels

/-! ## Rows by name -/

namespace Row

variable {row : Row} {column : String} {value : Value} {fields : List (String × Value)}

theorem map_fst_setField :
    (setField column value fields).map Prod.fst =
      if column ∈ fields.map Prod.fst then fields.map Prod.fst
      else fields.map Prod.fst ++ [column] := by
  induction fields with
  | nil => rfl
  | cons field rest ih =>
      rw [setField]
      split
      · simp_all
      · rw [List.map_cons, ih, List.map_cons]
        split <;> grind

theorem columns_set :
    (row.set column value).columns =
      if column ∈ row.columns then row.columns else row.columns ++ [column] :=
  map_fst_setField

theorem columns_foldl_set (fields : List (String × Value)) (distinct : row.columns.Nodup) :
    let set := fields.foldl (fun row field => row.set field.1 field.2) row
    set.columns.Nodup ∧
      ∀ column, column ∈ set.columns ↔ column ∈ row.columns ∨ column ∈ fields.map Prod.fst := by
  induction fields generalizing row with
  | nil => simpa using distinct
  | cons field rest ih =>
      have next : (row.set field.1 field.2).columns.Nodup := by
        rw [columns_set]
        split
        · exact distinct
        · rename_i absent
          exact List.nodup_append.mpr ⟨distinct, List.nodup_singleton _, by grind⟩
      obtain ⟨nodup, members⟩ := ih next
      refine ⟨nodup, fun column => (members column).trans ?_⟩
      rw [columns_set]
      split <;> grind

/-- Fields that are set one after another are all kept only if their names are distinct. -/
theorem length_ofFields_iff :
    (ofFields fields).fields.length = fields.length ↔ (fields.map Prod.fst).Nodup := by
  have none : empty.columns.Nodup := List.nodup_nil
  obtain ⟨distinct, members⟩ := columns_foldl_set fields none
  have same : (ofFields fields).columns.Perm (fields.map Prod.fst).dedup :=
    (List.perm_ext_iff_of_nodup distinct (List.nodup_dedup _)).mpr fun column => by
      simpa [empty, columns] using members column
  have length : (ofFields fields).fields.length = (fields.map Prod.fst).dedup.length := by
    rw [← same.length_eq, columns, List.length_map]
  have all : (fields.map Prod.fst).length = fields.length := List.length_map _
  rw [length, ← all, (List.dedup_sublist _).length_eq, List.dedup_eq_self]

end Row

/-! ## Rows of a plan -/

theorem distinctRows_subset (rows : List Tuple) : distinctRows rows ⊆ rows :=
  foldl_unseen_subset

namespace QueryPlan

variable {store : Store} {plan source : QueryPlan} {labels : List String}

/-- Whether a plan gives rows. -/
def Runs (store : Store) (plan : QueryPlan) : Prop :=
  ∃ set, plan.run store = .ok set

/-- Whether a plan gives rows under the given labels, with a value for each of them. -/
def Shows (store : Store) (plan : QueryPlan) (labels : List String) : Prop :=
  ∃ set, plan.run store = .ok set ∧ set.columns = labels ∧
    ∀ row ∈ set.rows, row.length = labels.length

theorem Runs.of_map {change : RowSet → RowSet} (runs : source.Runs store)
    (eq : plan.run store = (source.run store).map change) : plan.Runs store := by
  obtain ⟨set, ran⟩ := runs
  exact ⟨change set, by rw [eq, ran]; rfl⟩

theorem Runs.join {kind : Language.JoinKind} {predicate : Option Predicate} {left right : QueryPlan}
    (first : left.Runs store) (second : right.Runs store) :
    (QueryPlan.join kind predicate left right).Runs store := by
  obtain ⟨set, ran⟩ := first
  obtain ⟨other, ran'⟩ := second
  exact ⟨.join kind predicate set other, by rw [run, ran, ok_bind, ran']; rfl⟩

theorem Runs.shows_projection {columns : List (Operand × String)} (runs : source.Runs store) :
    (QueryPlan.projection columns source).Shows store (columns.map Prod.snd) := by
  obtain ⟨set, ran⟩ := runs
  refine ⟨set.project columns, by rw [run, ran]; rfl, rfl, fun row member => ?_⟩
  obtain ⟨_, -, rfl⟩ := List.mem_map.mp member
  simp

theorem Shows.runs (shows : plan.Shows store labels) : plan.Runs store :=
  shows.imp fun _ => And.left

/-- What only leaves rows out, or puts them in another order, keeps their columns. -/
theorem Shows.of_mapRows {change : List Tuple → List Tuple} (shows : source.Shows store labels)
    (eq : plan.run store = (source.run store).map fun set => set.mapRows change)
    (among : ∀ rows, change rows ⊆ rows) : plan.Shows store labels := by
  obtain ⟨set, ran, rfl, widths⟩ := shows
  refine ⟨set.mapRows change, by rw [eq, ran]; rfl, rfl, fun row member => ?_⟩
  exact widths row (among set.rows member)

theorem Shows.distinct (shows : source.Shows store labels) :
    (QueryPlan.distinct source).Shows store labels :=
  shows.of_mapRows rfl distinctRows_subset

theorem Shows.offset {count : Nat} (shows : source.Shows store labels) :
    (QueryPlan.offset count source).Shows store labels :=
  shows.of_mapRows rfl fun _ => List.drop_subset _ _

theorem Shows.limit {count : Nat} (shows : source.Shows store labels) :
    (QueryPlan.limit count source).Shows store labels :=
  shows.of_mapRows rfl fun _ => List.take_subset _ _

theorem Shows.order {terms : List (Nat × Bool)} (shows : source.Shows store labels) :
    (QueryPlan.order terms source).Shows store labels :=
  shows.of_mapRows rfl fun rows => (List.mergeSort_perm rows _).subset

end QueryPlan

/-! ## Planned queries -/

section Queries

variable {context : PlanContext} {select : Select} {source : Scoped} {plan : QueryPlan}

theorem planTable_runs {reference : Language.TableReference}
    (named : ∀ entry ∈ context.store.relations.entries, entry.2.schema.name = entry.1)
    (planned : planTable context reference = .ok source) : source.plan.Runs context.store := by
  obtain ⟨table, found, made⟩ := bind_eq_ok_iff.mp planned
  obtain rfl := pure_eq_ok_iff.mp made
  obtain ⟨relation, held, rfl⟩ := map_eq_ok_iff.mp found
  have same := named _ (Store.relation_eq_ok_iff.mp held)
  exact ⟨⟨relation.schema.columnNames, relation.tuples⟩, by rw [QueryPlan.run, same, held]; rfl⟩

theorem planJoin_runs {join : Language.Join} {joined : Scoped}
    (named : ∀ entry ∈ context.store.relations.entries, entry.2.schema.name = entry.1)
    (runs : source.plan.Runs context.store)
    (planned : planJoin context source join = .ok joined) : joined.plan.Runs context.store := by
  obtain ⟨right, read, planned⟩ := bind_eq_ok_iff.mp planned
  obtain ⟨scope, -, planned⟩ := bind_eq_ok_iff.mp planned
  obtain ⟨predicate, -, made⟩ := bind_eq_ok_iff.mp planned
  obtain rfl := pure_eq_ok_iff.mp made
  exact runs.join (planTable_runs named read)

/-- Tables are found again when a plan is run, if they stand under their names. -/
theorem planSources_runs_of_named
    (named : ∀ entry ∈ context.store.relations.entries, entry.2.schema.name = entry.1)
    (planned : planSources context select = .ok source) : source.plan.Runs context.store := by
  have joined {first : Scoped} (runs : first.plan.Runs context.store)
      (planned : select.joins.foldlM (planJoin context) first = .ok source) :
      source.plan.Runs context.store :=
    foldlM_ok_invariant (fun source => source.plan.Runs context.store)
      (fun _ _ _ _ runs joined => planJoin_runs named runs joined) runs planned
  rw [planSources] at planned
  split at planned
  · obtain ⟨first, read, planned⟩ := bind_eq_ok_iff.mp planned
    exact joined (planTable_runs named read) planned
  · exact joined ⟨_, rfl⟩ planned

theorem planSources_runs (wellFormed : context.store.WellFormed)
    (planned : planSources context select = .ok source) : source.plan.Runs context.store :=
  planSources_runs_of_named wellFormed.named planned

theorem planCondition_runs {condition : Option Language.Expression} {passed : Scoped}
    (runs : source.plan.Runs context.store)
    (planned : planCondition context source condition = .ok passed) :
    passed.plan.Runs context.store := by
  cases condition with
  | none =>
      cases planned
      exact runs
  | some expression =>
      rw [planCondition, guarded_eq_ok_iff, bind_eq_ok_iff] at planned
      obtain ⟨-, predicate, -, made⟩ := planned
      obtain rfl := pure_eq_ok_iff.mp made
      exact runs.of_map rfl

theorem planRows_runs {rows : Scoped} (runs : source.plan.Runs context.store)
    (planned : planRows context select source = .ok rows) : rows.plan.Runs context.store := by
  rw [planRows] at planned
  split at planned
  · obtain ⟨keys, -, planned⟩ := bind_eq_ok_iff.mp planned
    obtain ⟨aggregates, -, made⟩ := bind_eq_ok_iff.mp planned
    obtain rfl := pure_eq_ok_iff.mp made
    exact runs.of_map rfl
  · cases planned
    exact runs

theorem planSortKey_extends {scope : Scope} {visible : Nat} {columns : List (Operand × String)}
    {key : Language.Expression} {planned : Nat × List (Operand × String)}
    (read : planSortKey context scope visible columns key = .ok planned) :
    columns <+: planned.2 := by
  unfold planSortKey at read
  split at read
  · obtain ⟨position, -, made⟩ := bind_eq_ok_iff.mp read
    obtain rfl := pure_eq_ok_iff.mp made
    exact List.prefix_rfl
  · split at read
    · obtain rfl := pure_eq_ok_iff.mp read
      exact List.prefix_rfl
    · obtain ⟨operand, -, read⟩ := bind_eq_ok_iff.mp read
      split at read
      · obtain rfl := pure_eq_ok_iff.mp read
        exact List.prefix_rfl
      · obtain rfl := pure_eq_ok_iff.mp read
        exact List.prefix_append _ _

/-- Columns that are sorted by but not shown stand behind all others. -/
theorem planOrdering_extends {scope : Scope} {visible : Nat} {columns : List (Operand × String)}
    {terms : List Language.OrderTerm} {planned : List (Nat × Bool) × List (Operand × String)}
    (read : planOrdering context scope visible columns terms = .ok planned) :
    columns <+: planned.2 := by
  induction terms generalizing columns planned with
  | nil =>
      cases read
      exact List.prefix_rfl
  | cons term rest ih =>
      obtain ⟨position, found, read⟩ := bind_eq_ok_iff.mp read
      obtain ⟨more, others, made⟩ := bind_eq_ok_iff.mp read
      obtain rfl := pure_eq_ok_iff.mp made
      have later : position.2 <+: more.2 := ih others
      exact (planSortKey_extends found).trans later

theorem planOutput_shows {columns all : List (Operand × String)} {terms : List (Nat × Bool)}
    {store : Store} (runs : plan.Runs store) (extended : columns <+: all) :
    (planOutput columns.length all terms plan).Shows store (columns.map Prod.snd) := by
  have projected : (QueryPlan.projection all plan).Shows store (all.map Prod.snd) :=
    runs.shows_projection
  have sorted : (if terms.isEmpty then QueryPlan.projection all plan
      else .order terms (.projection all plan)).Shows store (all.map Prod.snd) := by
    split
    · exact projected
    · exact projected.order
  rw [planOutput]
  split
  · rw [← List.prefix_iff_eq_take.mp extended]
    let shown := ((List.range columns.length).map Operand.column).zip (columns.map Prod.snd)
    have labels : shown.map Prod.snd = columns.map Prod.snd := List.map_snd_zip (by simp)
    have projected : (QueryPlan.projection shown _).Shows store (shown.map Prod.snd) :=
      sorted.runs.shows_projection
    rw [labels] at projected
    exact projected
  · rename_i all_shown
    obtain rfl := extended.eq_of_length (by have := extended.length_le; omega)
    exact sorted

theorem planBounds_shows {store : Store} {labels : List String} (shows : plan.Shows store labels) :
    (planBounds select plan).Shows store labels := by
  have distinct : (if select.distinct then plan.distinct else plan).Shows store labels := by
    split
    · exact shows.distinct
    · exact shows
  rw [planBounds]
  cases select.offset <;> cases select.limit
  · exact distinct
  · exact distinct.limit
  · exact distinct.offset
  · exact distinct.offset.limit

/-- The columns that a query lists, under the labels that it gives them. -/
def planList (context : PlanContext) (select : Select) : Except Error (List Labelled) := do
  let source ← planSources context select
  let passed ← planCondition context source select.condition
  let rows ← planRows context select passed
  let items ← select.items.mapM (planItem context select select.isGrouped rows.scope)
  return items.flatten

/-- A query that is planned gives rows with a value for each column that it lists. -/
theorem planSelect_shows (wellFormed : context.store.WellFormed)
    (planned : planSelect context select = .ok plan) :
    ∃ items, planList context select = .ok items ∧
      plan.Shows context.store ((labelled [] items).map Prod.snd) := by
  rw [planSelect_eq] at planned
  obtain ⟨unbounded, read, rfl⟩ := map_eq_ok_iff.mp planned
  obtain ⟨source, sources, planned⟩ := bind_eq_ok_iff.mp read
  obtain ⟨passed, filtered, planned⟩ := bind_eq_ok_iff.mp planned
  obtain ⟨rows, grouped, planned⟩ := bind_eq_ok_iff.mp planned
  obtain ⟨having, conditioned, planned⟩ := bind_eq_ok_iff.mp planned
  obtain ⟨items, listed, planned⟩ := bind_eq_ok_iff.mp planned
  obtain ⟨⟨terms, all⟩, ordered, made⟩ := bind_eq_ok_iff.mp planned
  obtain rfl := pure_eq_ok_iff.mp made
  refine ⟨items.flatten, ?_, planBounds_shows (planOutput_shows ?_ (planOrdering_extends ordered))⟩
  · simp only [planList, sources, filtered, grouped, listed, ok_bind]
    rfl
  · have runs := planRows_runs (planCondition_runs (planSources_runs wellFormed sources) filtered)
      grouped
    cases having with
    | none => exact runs
    | some predicate => exact runs.of_map rfl

end Queries

namespace Database

variable {database : Database} {request : Request} {select : Select} {count : Nat}
variable {plan : QueryPlan}

theorem perform_of_query {after : Database} {outcome : Outcome}
    (ran : database.query request = .ok (after, outcome)) :
    database.perform request = (after, .ok outcome) := by
  rw [query_eq] at ran
  rcases performed : database.perform request with ⟨changed, result⟩
  rw [performed] at ran
  cases result with
  | error error => cases ran
  | ok found =>
      cases ran
      rfl

/-- A query that the caller may make, and that is planned, gives rows with a value for each of its
columns. As reported by name they keep all of them where the labels are distinct, and no row does
where they are not. Labels come out distinct just where what replaces a repeated one is found
neither among the labels of the list nor among the other replacements. -/
theorem rows_complete_iff (reached : database.Reachable)
    (read : parseStatement request.sql = .ok (.select select, count))
    (allowed : database.check
      ⟨Text.trim request.sql, .select select, count, select.diagnosis⟩ request = .ok ())
    (planned : planSelect
      { store := database.state.store, parameters := request.parameters } select = .ok plan) :
    ∃ items columns tuples rows,
      planList { store := database.state.store, parameters := request.parameters } select =
        .ok items ∧
      database.query request = .ok (database, .rows ⟨columns, tuples⟩) ∧
      (database.execute request).2.columns? = some columns ∧
      (database.execute request).2.rows? = some rows ∧
      columns = (labelled [] items).map Prod.snd ∧
      (columns.Nodup ↔ (replacedLabels [] items).Nodup ∧
        ∀ label ∈ replacedLabels [] items, label ∉ items.map Labelled.label) ∧
      List.Forall₂ (fun tuple row => tuple.length = columns.length ∧
        (columns.Nodup → row.fields = columns.zip tuple) ∧
        (row.fields.length = columns.length ↔ columns.Nodup)) tuples rows := by
  obtain ⟨items, listed, set, ran, labels, widths⟩ :=
    planSelect_shows reached.wellFormed.current.store planned
  have answered : database.query request = .ok (database, .rows set) := by
    rw [query_select read, allowed, ok_bind, planned, ok_bind, ran]
    rfl
  have result : (database.execute request).2.outcome? = some (.rows set) := by
    rw [Report.outcome?, (execute_eq database request).2, perform_of_query answered]
    rfl
  refine ⟨items, set.columns, set.rows, set.rows.map fun tuple => .ofFields (set.columns.zip tuple),
    listed, answered, by rw [Report.columns?, result]; rfl, by rw [Report.rows?, result]; rfl,
    labels, labels ▸ labelled_nodup_iff, ?_⟩
  rw [List.forall₂_map_right_iff, List.forall₂_same]
  intro tuple member
  have width : tuple.length = set.columns.length := labels ▸ widths tuple member
  have names : (set.columns.zip tuple).map Prod.fst = set.columns :=
    List.map_fst_zip (Nat.le_of_eq width.symm)
  have fields : (set.columns.zip tuple).length = set.columns.length := by
    rw [List.length_zip, width, Nat.min_self]
  refine ⟨width, fun distinct => ?_, ?_⟩
  · rw [Row.ofFields_of_distinct (names.symm ▸ distinct)]
  · rw [← fields, Row.length_ofFields_iff, names]

/-- The second and the third column are both qualified by their table, so one of them is lost. -/
theorem repeated_label_lost :
    let database := fromTexts ["CREATE TABLE t (a TEXT)", "INSERT INTO t (a) VALUES ('x')"]
    let request : Request :=
      { sql := "SELECT a, a, a FROM t", parameters := [], caller := .local }
    let row : Row := ⟨[("a", .text "x"), ("t.a", .text "x")]⟩
    (database.execute request).2.columns? = some ["a", "t.a", "t.a"] ∧
    (database.execute request).2.rows? = some [row] ∧
    row.fields.length ≠ ["a", "t.a", "t.a"].length := by
  intro database request row
  have boundable : Language.isBoundable request.sql = true := by decide +kernel
  have performed : (database.perform request).2 = .ok (.rows ⟨["a", "t.a", "t.a"],
      [[.text "x", .text "x", .text "x"]]⟩) := by decide +kernel
  have reported : (database.execute request).2.rows? = some [row] := by decide +kernel
  have reached : database.Reachable := fromTexts_reachable
  clear_value database request row
  obtain ⟨select, count, read, -⟩ := Language.of_isBoundable boundable
  have ran := query_of_perform performed
  obtain ⟨allowed, plan, set, planned, -⟩ := query_select_eq_ok read ran
  obtain ⟨items, columns, tuples, found, -, answered, labels, named, -, -, kept⟩ :=
    rows_complete_iff reached read allowed planned
  cases (Prod.mk.inj (Except.ok.inj (answered.symm.trans ran))).2
  cases named.symm.trans reported
  obtain ⟨⟨-, -, whole⟩, -⟩ := List.forall₂_cons.mp kept
  exact ⟨labels, reported, fun all => absurd (whole.mp all) (by decide)⟩

end Database

end Coffer
