import Coffer.Proofs.Grouping
import Coffer.Proofs.ResultLabels
import Coffer.Proofs.StableSort
import Coffer.Proofs.Untouched

namespace Coffer

/-! # Answers of queries

A query without groups answers with its rows sorted first and projected then. Its plan goes the
other way: it projects, sorts what it has projected with the keys that are not shown behind the
columns that are, and cuts these keys off again.
-/

open Coffer.Language (Expression Select)

/-- What a query is about: the joined rows that pass its condition, the columns of its select list
under their labels, and the keys to sort by, with those that go down marked. -/
structure Listing where
  rows : List Tuple
  columns : List (Operand × String)
  keys : List (Operand × Bool)

/-- The column of the select list whose label a bare name is. -/
def labelledOperand? (columns : List (Operand × String)) : Expression → Option Operand
  | .field none name => (columns.find? fun column => column.2 == name).map Prod.fst
  | _ => none

/-- What a sort key stands for: a column of the select list by its place or its label, and
otherwise an expression over the joined rows. -/
def sortOperand (context : PlanContext) (scope : Scope) (columns : List (Operand × String)) :
    Expression → Except Error Operand
  | .literal (.integer number) =>
    match if 1 ≤ number.toInt then columns[number.toInt.toNat - 1]? else none with
    | some column => .ok column.1
    | none => .error (.orderPosition number)
  | key =>
    match labelledOperand? columns key with
    | some operand => .ok operand
    | none => context.operand scope key

def Language.Select.listing (select : Select) (context : PlanContext) :
    Except Error Listing := do
  let source ← planSources context select
  let set ← source.plan.run context.store
  let condition ← context.predicate? source.scope select.condition
  let items ← select.items.mapM (planItem context select false source.scope)
  let columns := labelled [] items.flatten
  let keys ← select.ordering.mapM fun term => do
    return (← sortOperand context source.scope columns term.key, term.descending)
  return { rows := set.rows.filter fun row => condition.all fun passes => passes.test row
           columns
           keys }

namespace Listing

/-- Whether each key takes, apart from nulls, only integers or only words. -/
def isOrderable (listing : Listing) : Bool :=
  listing.keys.all fun key => Coffer.isOrderable listing.rows key.1

/-- The rows that a query gives: sorted, projected, without repetitions if it asks for that, and
within its bounds. -/
def answer (listing : Listing) (select : Select) : RowSet :=
  let sorted := listing.rows.insertionSort fun first second =>
    mayPrecede listing.keys first second = true
  let shown := sorted.map fun row => listing.columns.map fun column => column.1.value row
  let distinct := if select.distinct then shown.eraseDupsBy sameTuple else shown
  let skipped := distinct.drop (select.offset.getD 0)
  { columns := listing.columns.map Prod.snd
    rows := match select.limit with
      | some count => skipped.take count
      | none => skipped }

end Listing

/-! ## Bounds -/

section

variable {store : Store} {source : QueryPlan} {set : RowSet} {select : Select}

/-- Of equal rows the first one is kept. -/
theorem distinctRows_eq_eraseDupsBy (rows : List Tuple) :
    distinctRows rows = rows.eraseDupsBy sameTuple := by
  induction rows using List.reverseRecOn with
  | nil => rfl
  | append_singleton rows row ih =>
      rw [eraseDupsBy_concat, ← ih, distinctRows, List.foldl_append, List.foldl_cons,
        List.foldl_nil]
      have swapped : (fun other => sameTuple other row) = sameTuple row :=
        funext fun _ => sameTuple_comm
      rw [swapped]
      rfl

theorem planBounds_run :
    (planBounds select source).run store = (source.run store).map fun set => set.mapRows fun rows =>
      let distinct := if select.distinct then distinctRows rows else rows
      let skipped := distinct.drop (select.offset.getD 0)
      match select.limit with
      | some count => skipped.take count
      | none => skipped := by
  rw [planBounds]
  cases select.distinct <;> cases select.offset <;> cases select.limit <;>
    simp only [Bool.false_eq_true, if_true, if_false, QueryPlan.run] <;>
    cases source.run store <;> rfl

theorem sortRows_nil (rows : List Tuple) : sortRows [] rows = rows :=
  List.mergeSort_of_pairwise (List.pairwise_of_forall fun _ _ => rfl)

/-! ## Hidden columns -/

/-- The columns with which a row begins. -/
theorem map_column_range {row : Tuple} {count : Nat} (within : count ≤ row.length) :
    (List.range count).map (fun position => (Operand.column position).value row) =
      row.take count := by
  refine List.ext_getElem (by simpa using within) fun position inside _ => ?_
  have bound : position < row.length := by
    rw [List.length_map, List.length_range] at inside
    omega
  simp [Operand.value, List.getElem?_eq_getElem bound]

/-- What is sorted by and not shown is cut off. -/
theorem planOutput_run_ok {columns all : List (Operand × String)} {terms : List (Nat × Bool)}
    (extended : columns <+: all) (ran : source.run store = .ok set) :
    (planOutput columns.length all terms source).run store = .ok
      { columns := columns.map Prod.snd
        rows := (sortRows terms (set.rows.map fun row =>
          all.map fun column => column.1.value row)).map (List.take columns.length) } := by
  let shown := set.rows.map fun row => all.map fun column => column.1.value row
  have projected : (QueryPlan.projection all source).run store = .ok ⟨all.map Prod.snd, shown⟩ := by
    rw [QueryPlan.run, ran]
    rfl
  have sorted : (if terms.isEmpty then QueryPlan.projection all source
      else .order terms (.projection all source)).run store =
        .ok ⟨all.map Prod.snd, sortRows terms shown⟩ := by
    cases terms with
    | nil => rw [sortRows_nil]; exact projected
    | cons term rest =>
        rw [if_neg (by simp), QueryPlan.run, projected]
        rfl
  have widths : ∀ row ∈ sortRows terms shown, row.length = all.length := fun row member => by
    obtain ⟨_, -, rfl⟩ := List.mem_map.mp ((List.mergeSort_perm shown _).subset member)
    exact List.length_map _
  have labels : columns.map Prod.snd = (all.take columns.length).map Prod.snd := by
    rw [← List.prefix_iff_eq_take.mp extended]
  rw [planOutput]
  split
  · rename_i hidden
    let cut := ((List.range columns.length).map Operand.column).zip (columns.map Prod.snd)
    have operands : cut.map Prod.fst = (List.range columns.length).map Operand.column :=
      List.map_fst_zip (by simp)
    have kept : (sortRows terms shown).map (fun row => cut.map fun column => column.1.value row) =
        (sortRows terms shown).map (List.take columns.length) :=
      List.map_congr_left fun row member => by
        rw [← map_column_range (hidden.le.trans (widths row member).ge)]
        calc cut.map (fun column => column.1.value row)
            = (cut.map Prod.fst).map fun operand => operand.value row := by rw [List.map_map]; rfl
          _ = _ := by rw [operands, List.map_map]; rfl
    rw [QueryPlan.run, sorted, Except.map, RowSet.project, ← labels,
      List.map_snd_zip (by simp)]
    exact congrArg (fun rows => Except.ok (RowSet.mk _ rows)) kept
  · rename_i whole
    obtain rfl := extended.eq_of_length (by have := extended.length_le; omega)
    have kept : (sortRows terms shown).map (List.take columns.length) = sortRows terms shown :=
      (List.map_congr_left fun row member =>
        List.take_of_length_le (widths row member).le).trans (List.map_id _)
    rw [sorted, kept]

theorem planOutput_run {columns all : List (Operand × String)} {terms : List (Nat × Bool)}
    (extended : columns <+: all) :
    (planOutput columns.length all terms source).run store = (source.run store).map fun set =>
      { columns := columns.map Prod.snd
        rows := (sortRows terms (set.rows.map fun row =>
          all.map fun column => column.1.value row)).map (List.take columns.length) } := by
  cases ran : source.run store with
  | error reason =>
      rw [planOutput]
      split <;> split <;> simp only [QueryPlan.run, ran] <;> rfl
  | ok set => exact planOutput_run_ok extended ran

end

/-! ## Sort keys -/

section

variable {context : PlanContext} {scope : Scope} {columns all : List (Operand × String)}
variable {key : Expression} {position : Nat}

theorem labelledOperand?_eq :
    labelledOperand? columns key =
      (labelPosition? (columns.map Prod.snd) key).bind fun position =>
        columns[position]?.map Prod.fst := by
  cases key with
  | field relation name =>
      cases relation with
      | some relation => rfl
      | none =>
          rw [labelledOperand?, labelPosition?, List.find?_eq_bind_findIdx?_getElem?,
            List.idxOf?, List.findIdx?_map]
          simp only [Option.map_bind]
          rfl
  | _ => rfl

theorem lt_of_labelPosition? {labels : List String}
    (found : labelPosition? labels key = some position) : position < labels.length := by
  cases key with
  | field relation name =>
      cases relation with
      | some relation => cases found
      | none => exact (List.idxOf?_eq_some_iff.mp found).1
  | _ => cases found

/-- Whether a column has the operand of a key, or one that is equal to it. -/
def StandsFor (column : Operand × String) (key : Operand) : Prop :=
  column.1 = key ∨ column.1.same key = true

/-- A sort key gets the place of a column that stands for it. -/
theorem planSortKey_stands {extended : List (Operand × String)} (shown : columns <+: all)
    (read : planSortKey context scope columns.length all key = .ok (position, extended)) :
    ∃ operand column, sortOperand context scope columns key = .ok operand ∧
      extended[position]? = some column ∧ StandsFor column operand := by
  have kept {place : Nat} {column : Operand × String} (found : columns[place]? = some column) :
      all[place]? = some column := by
    obtain ⟨hidden, rfl⟩ := shown
    rwa [List.getElem?_append_left (List.getElem?_eq_some_iff.mp found).1]
  unfold planSortKey at read
  split at read
  · rename_i number
    obtain ⟨place, located, made⟩ := bind_eq_ok_iff.mp read
    cases made
    rw [listPosition] at located
    split at located
    · rename_i within
      cases located
      have inside : number.toInt.toNat - 1 < columns.length := by omega
      have found := List.getElem?_eq_getElem inside
      refine ⟨columns[number.toInt.toNat - 1].1, columns[number.toInt.toNat - 1], ?_, kept found,
        .inl rfl⟩
      rw [sortOperand, if_pos within.1, found]
    · cases located
  · rename_i other
    rw [← List.prefix_iff_eq_take.mp shown] at read
    have resolved : sortOperand context scope columns key =
        match labelledOperand? columns key with
        | some operand => .ok operand
        | none => context.operand scope key := by
      rw [sortOperand]
      exact other
    rw [resolved, labelledOperand?_eq]
    split at read
    · rename_i place labelled
      cases pure_eq_ok_iff.mp read
      have inside : position < columns.length := by simpa using lt_of_labelPosition? labelled
      have found := List.getElem?_eq_getElem inside
      refine ⟨columns[position].1, columns[position], ?_, kept found, .inl rfl⟩
      rw [labelled, Option.bind_some, found]
      rfl
    · rename_i unlabelled
      obtain ⟨operand, made, read⟩ := bind_eq_ok_iff.mp read
      refine ⟨operand, ?_⟩
      rw [unlabelled, Option.bind_none, exists_and_left]
      refine ⟨made, ?_⟩
      split at read
      · rename_i place reused
        cases pure_eq_ok_iff.mp read
        obtain ⟨within, same, -⟩ := List.findIdx?_eq_some_iff_getElem.mp reused
        exact ⟨all[position], List.getElem?_eq_getElem within, .inr same⟩
      · cases pure_eq_ok_iff.mp read
        exact ⟨(operand, ""), by simp, .inl rfl⟩

/-- Each term of an ordering is the place of a column that stands for its key, and the terms keep
the directions of the keys. -/
theorem planOrdering_stands {ordering : List Language.OrderTerm}
    {terms : List (Nat × Bool)} {extended : List (Operand × String)} (shown : columns <+: all)
    (read : planOrdering context scope columns.length all ordering = .ok (terms, extended)) :
    ∃ keys, (ordering.mapM fun term => do
        return (← sortOperand context scope columns term.key, term.descending)) =
          (.ok keys : Except Error (List (Operand × Bool))) ∧
      List.Forall₂ (fun term key => term.2 = key.2 ∧
        ∃ column, extended[term.1]? = some column ∧ StandsFor column key.1) terms keys := by
  induction ordering generalizing all terms with
  | nil =>
      cases read
      exact ⟨[], rfl, .nil⟩
  | cons term rest ih =>
      obtain ⟨⟨position, next⟩, found, read⟩ := bind_eq_ok_iff.mp read
      obtain ⟨⟨positions, whole⟩, others, made⟩ := bind_eq_ok_iff.mp read
      cases pure_eq_ok_iff.mp made
      obtain ⟨operand, column, resolved, placed, stands⟩ := planSortKey_stands shown found
      obtain ⟨keys, listed, matched⟩ := ih (shown.trans (planSortKey_extends found)) others
      refine ⟨(operand, term.descending) :: keys, ?_, .cons ⟨rfl, column, ?_, stands⟩ matched⟩
      · rw [List.mapM_cons, resolved, ok_bind, listed]
        rfl
      · obtain ⟨later, rfl⟩ := planOrdering_extends others
        rwa [List.getElem?_append_left (List.getElem?_eq_some_iff.mp placed).1]

theorem Value.eq_of_same {first second : Value} (same : first.same second = true)
    (plain : (second.isWhole || second.isWord) = true) : first = second := by
  cases second with
  | real => cases plain
  | _ => cases first <;> simp_all [Value.same]

/-- Equal operands have one value, unless that is a real. -/
theorem value_of_standsFor {column : Operand × String} {operand : Operand} {row : Tuple}
    (stands : StandsFor column operand)
    (plain : ((operand.value row).isWhole || (operand.value row).isWord) = true) :
    column.1.value row = operand.value row := by
  obtain ⟨own, label⟩ := column
  rcases stands with rfl | same
  · rfl
  · cases own with
    | column place =>
        cases operand with
        | column other => rw [eq_of_beq same]
        | constant value => cases same
    | constant value =>
        cases operand with
        | column other => cases same
        | constant other =>
            exact Value.eq_of_same same plain

/-- The projected rows have the values of the sort keys in the places of the terms. -/
theorem carries_of_stands {rows : List Tuple} {terms : List (Nat × Bool)}
    {keys : List (Operand × Bool)}
    (matched : List.Forall₂ (fun term key => term.2 = key.2 ∧
      ∃ column, all[term.1]? = some column ∧ StandsFor column key.1) terms keys)
    (orderable : ∀ key ∈ keys, isOrderable rows key.1 = true) {row : Tuple} (member : row ∈ rows) :
    List.Forall₂ (Carries row (all.map fun column => column.1.value row)) terms keys := by
  induction matched with
  | nil => exact .nil
  | cons same _ ih =>
      obtain ⟨own, others⟩ := List.forall_mem_cons.mp orderable
      obtain ⟨direction, column, placed, stands⟩ := same
      refine .cons ⟨direction, ?_⟩ (ih others)
      have alike := alike_of_isOrderable own member member
      rw [Value.alike, Bool.and_self, Bool.and_self] at alike
      rw [List.getD_eq_getElem?_getD, List.getElem?_map, placed]
      exact value_of_standsFor stands alike

end

/-! ## Queries -/

section

variable {context : PlanContext} {select : Select} {plan : QueryPlan}

/-- A condition lets those rows pass of which it holds. -/
theorem planCondition_run {source passed : Scoped} {condition : Option Expression}
    (planned : planCondition context source condition = .ok passed) :
    ∃ predicate, context.predicate? source.scope condition = .ok predicate ∧
      passed.scope = source.scope ∧
      passed.plan.run context.store = (source.plan.run context.store).map fun set =>
        set.mapRows fun rows => rows.filter fun row =>
          predicate.all fun passes => passes.test row := by
  cases condition with
  | none =>
      cases planned
      refine ⟨none, rfl, rfl, ?_⟩
      cases source.plan.run context.store with
      | error reason => rfl
      | ok set => simp [Except.map, RowSet.mapRows]
  | some expression =>
      rw [planCondition, guarded_eq_ok_iff, bind_eq_ok_iff] at planned
      obtain ⟨-, predicate, read, made⟩ := planned
      obtain rfl := pure_eq_ok_iff.mp made
      exact ⟨some predicate, by rw [PlanContext.predicate?, read]; rfl, rfl, rfl⟩

/-- A query without groups that is planned answers with the rows that it lists, sorted, projected
and bounded, as long as each of its sort keys takes only integers or only words, apart from nulls.
It has an answer if all tables stand under their names. -/
theorem planSelect_answers (plain : select.isGrouped = false)
    (planned : planSelect context select = .ok plan) :
    ((∀ entry ∈ context.store.relations.entries, entry.2.schema.name = entry.1) →
      ∃ listing, select.listing context = .ok listing) ∧
    ((∀ listing, select.listing context = .ok listing → listing.isOrderable = true) →
      plan.run context.store = (select.listing context).map fun listing =>
        listing.answer select) := by
  rw [planSelect_eq] at planned
  obtain ⟨unbounded, read, rfl⟩ := map_eq_ok_iff.mp planned
  obtain ⟨source, sources, read⟩ := bind_eq_ok_iff.mp read
  obtain ⟨passed, filtered, read⟩ := bind_eq_ok_iff.mp read
  obtain ⟨condition, conditioned, scope, ran⟩ := planCondition_run filtered
  obtain ⟨rows, ungrouped, read⟩ := bind_eq_ok_iff.mp read
  rw [planRows, plain] at ungrouped
  cases ungrouped
  have unconditioned : select.having = none := by
    simpa using (Bool.or_eq_false_iff.mp plain).2
  rw [planShown, unconditioned, plain, scope] at read
  obtain ⟨_, none, read⟩ := bind_eq_ok_iff.mp read
  cases none
  obtain ⟨items, listed, read⟩ := bind_eq_ok_iff.mp read
  obtain ⟨⟨terms, all⟩, ordered, made⟩ := bind_eq_ok_iff.mp read
  cases pure_eq_ok_iff.mp made
  obtain ⟨keys, resolved, matched⟩ := planOrdering_stands List.prefix_rfl ordered
  have listing : select.listing context = (source.plan.run context.store).map fun set =>
      { rows := set.rows.filter fun row => condition.all fun passes => passes.test row
        columns := labelled [] items.flatten
        keys } := by
    rw [Language.Select.listing, sources, ok_bind]
    cases source.plan.run context.store with
    | error reason => rfl
    | ok set =>
        rw [ok_bind, conditioned, ok_bind, listed, ok_bind]
        simp only [resolved]
        rfl
  refine ⟨fun named => ?_, fun orderable => ?_⟩
  · obtain ⟨set, run⟩ := planSources_runs_of_named named sources
    rw [listing, run]
    exact ⟨_, rfl⟩
  · have extended : labelled [] items.flatten <+: all := planOrdering_extends ordered
    have cut : (List.take (labelled [] items.flatten).length ∘ fun row : Tuple =>
        all.map fun column => column.1.value row) =
          fun row => (labelled [] items.flatten).map fun column => column.1.value row := by
      funext row
      rw [Function.comp, ← List.map_take, ← List.prefix_iff_eq_take.mp extended]
    rw [planBounds_run, planOutput_run extended, ran]
    rw [listing] at orderable ⊢
    cases run : source.plan.run context.store with
    | error reason => rfl
    | ok set =>
        rw [run] at orderable
        have each := List.all_eq_true.mp (orderable _ rfl)
        have sorted := sortRows_map each fun row member => carries_of_stands matched each member
        simp only [Except.map, RowSet.mapRows, Listing.answer, sorted, List.map_map, cut,
          distinctRows_eq_eraseDupsBy]

/-- Sorted downwards by a column that is not shown and has a null, then by a label. -/
theorem planSelect_answers_hidden :
    let database := Database.fromTexts ["CREATE TABLE t (a TEXT, b INTEGER, c INTEGER)",
      "INSERT INTO t (a, b, c) VALUES ('y', 2, 0), ('x', NULL, 0), ('z', 3, 0), ('x', 2, 0)",
      "INSERT INTO t (a, b, c) VALUES ('w', 9, 1), ('y', 2, 0)"]
    let context : PlanContext := { store := database.state.store, parameters := [.integer 0] }
    let select : Select :=
      { distinct := true
        items := [.expression (.field none "a") (some "name")]
        source := some ⟨"t", none⟩
        joins := []
        condition := some (.binary .equal (.field none "c") (.parameter 0))
        grouping := []
        having := none
        ordering := [⟨.field none "b", true⟩, ⟨.field none "name", false⟩]
        limit := some 2
        offset := some 1 }
    select.isGrouped = false ∧
    ∃ plan listing, planSelect context select = .ok plan ∧ select.listing context = .ok listing ∧
      listing.isOrderable = true ∧ plan.run context.store = .ok (listing.answer select) ∧
      listing.answer select = ⟨["name"], [[.text "x"], [.text "y"]]⟩ := by
  intro database context select
  have evaluated : ((planSelect context select).toOption.isSome,
      (select.listing context).toOption.map fun listing =>
        (listing.isOrderable, listing.answer select)) =
      (true, some (true, ⟨["name"], [[.text "x"], [.text "y"]]⟩)) := by decide +kernel
  have plain : select.isGrouped = false := rfl
  have reached : database.Reachable := Database.fromTexts_reachable
  clear_value database select
  obtain ⟨accepted, shown⟩ := Prod.mk.inj evaluated
  obtain ⟨plan, planned⟩ := Option.isSome_iff_exists.mp accepted
  have planned := eq_ok_of_toOption planned
  obtain ⟨answered, same⟩ := planSelect_answers plain planned
  obtain ⟨listing, listed⟩ := answered reached.wellFormed.current.store.named
  rw [listed] at shown
  obtain ⟨orderable, answer⟩ := Prod.mk.inj (Option.some.inj shown)
  refine ⟨plain, plan, listing, planned, listed, orderable, ?_, answer⟩
  rw [same fun other found => by cases listed.symm.trans found; exact orderable, listed]
  rfl

end

end Coffer
