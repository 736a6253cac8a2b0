import Coffer.Proofs.ResultLabels
import Coffer.Proofs.WrittenCall

namespace Coffer

/-! # Aggregates in groups

Each aggregate call of a query is looked up by the text it is written as. Where two calls are
written alike they share a column, and that is the column of the last one. Calls that differ are
written differently, unless all that differs is which placeholder they are on.
-/

open Coffer.Language (Expression Select parseStatement render_eq_iff select_of_parse)

/-- The value that an aggregate call stands for, over some rows of what is grouped. -/
def PlanContext.aggregateOf (context : PlanContext) (scope : Scope) (call : Expression)
    (rows : List Tuple) : Except Error Value :=
  (planAggregate context scope call).map fun planned =>
    planned.1.value (rows.map fun row => planned.2.value row)

/-- Whether a call is the last one of a list that is written like another call. -/
def LastAlike (calls : List Expression) (call own : Expression) : Prop :=
  ∃ before after, calls = before ++ own :: after ∧ call.Alike own ∧
    ∀ later ∈ after, ¬ call.Alike later

/-- Whether a part of a condition is in what is matched there against a null, which is not looked
at. -/
def Language.Expression.MatchedWithNull (parameters : List Value) (condition part : Expression) :
    Prop :=
  ∃ matched pattern, .binary .like matched pattern ∈ condition.parts ∧
    pattern.DenotesNull parameters ∧ part ∈ matched.parts

/-! ## Calls in a query -/

section Calls

variable {context : PlanContext} {scope : Scope} {expressions : List Expression}
variable {expression part call : Expression} {select : Select} {found : Operand}

theorem readable_of_part (readable : expression.Readable) :
    ∀ part ∈ expression.parts, part = .star ∨ part.Readable := by
  induction readable with
  | field => exact List.forall_mem_singleton.mpr (.inr .field)
  | literal finite => exact List.forall_mem_singleton.mpr (.inr (.literal finite))
  | parameter => exact List.forall_mem_singleton.mpr (.inr .parameter)
  | call starred all ih =>
      refine Expression.forall_parts_call.mpr ⟨.inr (.call starred all), fun argument listed => ?_⟩
      by_cases star : argument = .star
      · subst star
        exact List.forall_mem_singleton.mpr (.inl rfl)
      · exact ih argument listed star
  | binary first second ih ih' =>
      exact Expression.forall_parts_binary.mpr ⟨.inr (.binary first second), ih, ih'⟩
  | not only ih => exact Expression.forall_parts_not.mpr ⟨.inr (.not only), ih⟩
  | isNull only ih => exact Expression.forall_parts_isNull.mpr ⟨.inr (.isNull only), ih⟩
  | isIn first nonempty all ih ihs =>
      exact Expression.forall_parts_isIn.mpr ⟨.inr (.isIn first nonempty all), ih, ihs⟩
  | between first second third ih ih' ih'' =>
      exact Expression.forall_parts_between.mpr
        ⟨.inr (.between first second third), ih, ih', ih''⟩

theorem withoutRepeats_subset : withoutRepeats expressions ⊆ expressions :=
  foldl_unseen_subset

theorem summaries_subset : select.summaries ⊆ select.expressions := by
  intro expression member
  simp only [Select.summaries, Select.expressions, List.mem_append] at member ⊢
  rcases member with (item | condition) | key
  · exact .inl item
  · exact .inr (.inr (.inr (.inr (.inl condition))))
  · exact .inr (.inr (.inr (.inr (.inr key))))

theorem single_of_same {other : Expression} {function : String} {argument : Expression}
    (same : other.same expression = true) (single : other = .call function [argument]) :
    ∃ function argument, expression = .call function [argument] := by
  subst single
  cases expression with
  | call function' arguments =>
      rw [Expression.same, Bool.and_eq_true] at same
      cases arguments with
      | nil => cases same.2
      | cons operand rest =>
          cases rest with
          | nil => exact ⟨function', operand, rfl⟩
          | cons second others => simp [Expression.sameList] at same
  | _ => cases same

theorem planAggregate_single {planned : Aggregate × Operand}
    (read : planAggregate context scope call = .ok planned) :
    ∃ function argument, call = .call function [argument] := by
  cases call with
  | call function arguments =>
      obtain ⟨aggregate, named, -⟩ := bind_eq_ok_iff.mp read
      obtain ⟨argument, rfl, -⟩ := ofCall_eq_ok named
      exact ⟨function, argument, rfl⟩
  | _ => cases read

/-- The aggregate calls of a query whose aggregates are planned are on operands without parts. -/
theorem plainAggregate_of_planned {aggregates : List (Aggregate × Operand)}
    (none : scope.aggregates = []) (readable : ∀ expression ∈ select.summaries, expression.Readable)
    (read : (aggregateCalls select).mapM (planAggregate context scope) = .ok aggregates) :
    ∀ call ∈ select.calls, call.PlainAggregate := by
  intro call listed
  obtain ⟨⟨expression, summary, member⟩, aggregate⟩ := mem_calls.mp listed
  obtain ⟨other, kept, same⟩ := withoutRepeats_covers call listed
  rw [← aggregateCalls_eq] at kept
  obtain ⟨planned, first⟩ := mapM_eq_ok read other kept
  obtain ⟨function, argument, form⟩ := planAggregate_single first
  have single : ∃ function argument, call = .call function [argument] := by
    rcases same with rfl | same
    · exact ⟨function, argument, form⟩
    · exact single_of_same same form
  refine ⟨aggregate, ?_, ?_⟩
  · obtain ⟨function, argument, rfl⟩ := single
    have plain := aggregateCalls_plain none read expression summary _ member aggregate
    exact ⟨function, argument, rfl, List.all_eq_true.mp plain argument List.mem_cons_self⟩
  · obtain ⟨function, argument, rfl⟩ := single
    exact (readable_of_part (readable expression summary) _ member).resolve_left nofun

end Calls

/-! ## Calls that are looked at -/

section Answers

variable {context : PlanContext} {scope : Scope} {operand : Expression → Except Error Operand}
variable {whole expression part left right : Expression} {predicate : Predicate} {found : Operand}

/-- Whether an aggregate call in a condition is read, unless it is matched with a null. -/
def Answered (operand : Expression → Except Error Operand) (whole call : Expression) : Prop :=
  call.isAggregateCall = true →
    (∃ found, operand call = .ok found) ∨
    ∃ matched pattern, .binary .like matched pattern ∈ whole.parts ∧
      operand pattern = .ok (.constant .null) ∧ call ∈ matched.parts

/-- Whether the only aggregate call in each part that is read is that part itself. -/
def Undivided (operand : Expression → Except Error Operand) (whole : Expression) : Prop :=
  ∀ part ∈ whole.parts, ∀ found, operand part = .ok found →
    ∀ call ∈ part.parts, call.isAggregateCall = true → call = part

/-- Every aggregate call in a condition is answered where it is read. -/
theorem reading_answers (undivided : Undivided operand whole)
    (read : Predicate.reading operand whole = .ok predicate) :
    ∀ call ∈ whole.parts, Answered operand whole call := by
  have sustained : Sustained operand whole (Answered operand whole) := {
    read := fun part inside found read call member aggregate => by
      obtain rfl := undivided part inside found read call member aggregate
      exact .inl ⟨found, read⟩
    matched := fun left right inside null call member _ =>
      .inr ⟨left, right, inside, null, member⟩
    binary := fun _ _ _ _ _ => nofun
    literal := fun _ => nofun
    not := fun _ => nofun
    isNull := fun _ => nofun
    isIn := fun _ _ => nofun
    between := fun _ _ _ => nofun }
  exact sustained.reading (fun _ member => member) read

theorem undivided_operand (plain : scope.Aggregates whole) :
    Undivided (context.operand scope) whole := by
  intro part inside found read call member aggregate
  rcases operand_cases read with leaf | ⟨itself, some⟩
  · cases part with
    | field | literal | parameter | star => exact List.mem_singleton.mp member
    | _ => cases leaf
  · have flat := plain part inside itself some
    cases part with
    | call function arguments =>
        have among : ∀ call ∈ (Expression.call function arguments).parts,
            call.isAggregateCall = true → call = .call function arguments := by
          refine Expression.forall_parts_call.mpr ⟨fun _ => rfl, fun argument listed => ?_⟩
          have leaf := List.all_eq_true.mp flat argument listed
          cases argument with
          | field | literal | parameter | star => exact List.forall_mem_singleton.mpr nofun
          | _ => cases leaf
        exact among call member aggregate
    | _ => cases itself

theorem planSortKey_answers {key : Expression} {visible : Nat} {columns : List (Operand × String)}
    {planned : Nat × List (Operand × String)} (plain : scope.Aggregates key)
    (read : planSortKey context scope visible columns key = .ok planned) :
    ∀ call ∈ key.parts, call.isAggregateCall = true →
      ∃ found, context.operand scope call = .ok found := by
  unfold planSortKey at read
  split at read
  · exact List.forall_mem_singleton.mpr nofun
  · split at read
    · rename_i labelled
      cases key with
      | field => exact List.forall_mem_singleton.mpr nofun
      | _ => cases labelled
    · obtain ⟨operand, read, -⟩ := bind_eq_ok_iff.mp read
      intro call member aggregate
      obtain rfl := undivided_operand plain key key.mem_parts operand read call member aggregate
      exact ⟨operand, read⟩

theorem planOrdering_answers {terms : List Language.OrderTerm} {visible : Nat}
    {columns : List (Operand × String)} {planned : List (Nat × Bool) × List (Operand × String)}
    (plain : ∀ term ∈ terms, scope.Aggregates term.key)
    (read : planOrdering context scope visible columns terms = .ok planned) :
    ∀ term ∈ terms, ∀ call ∈ term.key.parts, call.isAggregateCall = true →
      ∃ found, context.operand scope call = .ok found := by
  induction terms generalizing columns planned with
  | nil => nofun
  | cons term rest ih =>
      obtain ⟨first, others⟩ := List.forall_mem_cons.mp plain
      obtain ⟨position, found, read⟩ := bind_eq_ok_iff.mp read
      obtain ⟨more, read, -⟩ := bind_eq_ok_iff.mp read
      exact List.forall_mem_cons.mpr ⟨planSortKey_answers first found, ih others read⟩

theorem planItem_answers {select : Select} {item : Language.SelectItem} {grouped : Bool}
    {columns : List Labelled} (plain : ∀ expression ∈ item.expressions, scope.Aggregates expression)
    (planned : planItem context select grouped scope item = .ok columns) :
    ∀ expression ∈ item.expressions, ∀ call ∈ expression.parts, call.isAggregateCall = true →
      ∃ found, context.operand scope call = .ok found := by
  cases item with
  | every | everyOf => nofun
  | expression value asName =>
      obtain ⟨operand, read, -⟩ := bind_eq_ok_iff.mp planned
      intro expression listed call member aggregate
      obtain rfl := List.mem_singleton.mp listed
      have undivided : Undivided (context.operand scope) expression :=
        undivided_operand (plain expression listed)
      obtain rfl := undivided expression expression.mem_parts operand read call member aggregate
      exact ⟨operand, read⟩

/-- Every aggregate call of a query is read as an operand, unless it is matched with a null. -/
theorem planShown_answers {select : Select} {rows : Scoped} {shown : QueryPlan}
    (plain : ∀ expression ∈ select.summaries, rows.scope.Aggregates expression)
    (planned : planShown context select rows = .ok shown) :
    ∀ call ∈ select.calls, (∃ found, context.operand rows.scope call = .ok found) ∨
      ∃ condition ∈ select.having.toList, condition.MatchedWithNull context.parameters call := by
  intro call listed
  obtain ⟨⟨expression, summary, member⟩, aggregate⟩ := mem_calls.mp listed
  have own := plain expression summary
  simp only [Language.Select.summaries, List.forall_mem_append, List.forall_mem_flatMap,
    List.forall_mem_map] at plain
  obtain ⟨⟨inItems, -⟩, inOrdering⟩ := plain
  obtain ⟨having, conditioned, planned⟩ := bind_eq_ok_iff.mp planned
  obtain ⟨items, columns, planned⟩ := bind_eq_ok_iff.mp planned
  obtain ⟨ordering, ordered, -⟩ := bind_eq_ok_iff.mp planned
  simp only [Language.Select.summaries, List.mem_append, List.mem_flatMap, List.mem_map] at summary
  rcases summary with (⟨item, among, within⟩ | condition) | ⟨term, among, rfl⟩
  · obtain ⟨found, read⟩ := mapM_eq_ok columns item among
    exact .inl (planItem_answers (inItems item among) read expression within call member aggregate)
  · rw [Option.mem_toList] at condition
    rw [condition] at conditioned
    obtain ⟨predicate, read, -⟩ := map_eq_ok_iff.mp conditioned
    have answered := reading_answers (undivided_operand own) read
    refine (answered call member aggregate).imp_right ?_
    rintro ⟨matched, pattern, inside, null, within⟩
    exact ⟨expression, Option.mem_toList.mpr condition, matched, pattern, inside,
      denotesNull_of_operand null, within⟩
  · exact .inl (planOrdering_answers inOrdering ordered term among call member aggregate)

end Answers

/-! ## Columns of a group -/

section Groups

variable {context : PlanContext} {scope : Scope} {calls : List Expression} {call other : Expression}
variable {keys : List Operand} {aggregates : List (Aggregate × Operand)} {tuples : List Tuple}
variable {group : Group} {groups : List Group} {start position : Nat} {text : String}
variable {found : Operand} {select : Select} {source rows : Scoped}

/-- Of several calls with one text, the last one is found. -/
theorem last_of_lookup
    (found : ((calls.map Expression.render).zip
      ((List.range calls.length).map fun place => start + place)).reverse.lookup text =
        some position) :
    ∃ before own after, calls = before ++ own :: after ∧ position = start + before.length ∧
      own.render = text ∧ ∀ later ∈ after, later.render ≠ text := by
  induction calls using List.reverseRecOn with
  | nil => cases found
  | append_singleton calls last ih =>
      rw [List.map_append, List.length_append, List.length_singleton, List.range_succ,
        List.map_append, List.zip_append (by simp), List.reverse_append] at found
      by_cases same : text = last.render
      · subst same
        refine ⟨calls, last, [], rfl, ?_, rfl, nofun⟩
        simpa using found.symm
      · have earlier := found
        simp only [List.map_cons, List.map_nil, List.zip_cons_cons, List.zip_nil_left,
          List.reverse_cons, List.reverse_nil, List.nil_append, List.singleton_append,
          List.lookup_cons, beq_eq_false_iff_ne.mpr same] at earlier
        obtain ⟨before, own, after, rfl, place, written, others⟩ := ih earlier
        refine ⟨before, own, after ++ [last], by simp, place, written, ?_⟩
        exact List.forall_mem_append.mpr
          ⟨others, List.forall_mem_singleton.mpr (Ne.symm same)⟩

theorem key_length_addToGroup {key row : Tuple} (width : key.length = keys.length)
    (all : ∀ group ∈ groups, group.key.length = keys.length) :
    ∀ group ∈ addToGroup key row groups, group.key.length = keys.length := by
  induction groups with
  | nil => exact List.forall_mem_singleton.mpr width
  | cons first rest ih =>
      obtain ⟨head, tail⟩ := List.forall_mem_cons.mp all
      rw [addToGroup]
      split
      · exact List.forall_mem_cons.mpr ⟨head, tail⟩
      · exact List.forall_mem_cons.mpr ⟨head, ih tail⟩

/-- The key of a group has a value for each key that is grouped by. -/
theorem key_length_of_mem_groupsOf (member : group ∈ groupsOf keys tuples) :
    group.key.length = keys.length := by
  have step (tuples : List Tuple) (groups : List Group)
      (all : ∀ group ∈ groups, group.key.length = keys.length) :
      ∀ group ∈ tuples.foldl (fun groups row => addToGroup (groupKey keys row) row groups) groups,
        group.key.length = keys.length := by
    induction tuples generalizing groups with
    | nil => exact all
    | cons row rest ih =>
        exact ih _ (key_length_addToGroup (by rw [groupKey, List.length_map]) all)
  refine step tuples _ ?_ group member
  split
  · rename_i none
    rw [List.isEmpty_iff.mp none]
    exact List.forall_mem_singleton.mpr rfl
  · nofun

theorem value_groupRow {planned : Aggregate × Operand} (width : group.key.length = keys.length)
    (placed : aggregates[position]? = some planned) :
    (Operand.column (keys.length + position)).value (groupRow aggregates group) =
      planned.1.value (group.rows.map fun row => planned.2.value row) := by
  rw [Operand.value, groupRow, List.getD_eq_getElem?_getD,
    List.getElem?_append_right (by omega), width, Nat.add_sub_cancel_left, List.getElem?_map,
    placed]
  rfl

/-- The position of an aggregate call is that of its text. -/
theorem operand_call_eq_ok {call : Expression} (aggregate : call.isAggregateCall = true)
    (read : context.operand scope call = .ok found) :
    ∃ position, found = .column position ∧ scope.aggregates.lookup call.render = some position := by
  cases call with
  | call function arguments =>
      obtain ⟨position, resolved, rfl⟩ := map_eq_ok_iff.mp read
      refine ⟨position, rfl, ?_⟩
      simp only [Scope.resolve] at resolved
      split at resolved
      · split at resolved
        · rename_i found
          rw [found]
          exact congrArg some (Except.ok.inj resolved)
        · cases resolved
      · cases resolved
  | _ => cases aggregate

theorem operand_of_render (aggregate : call.isAggregateCall = true)
    (also : other.isAggregateCall = true) (same : call.render = other.render) :
    context.operand scope call = .ok found → context.operand scope other = .ok found := by
  intro read
  obtain ⟨position, rfl, placed⟩ := operand_call_eq_ok aggregate read
  cases other with
  | call function arguments =>
      rw [same] at placed
      refine map_eq_ok_iff.mpr ⟨position, ?_, rfl⟩
      have named : Language.aggregateNames.contains function = true := also
      simp only [Scope.resolve, named, if_true, placed]
  | _ => cases also

/-- What an aggregate call is read as has the value of the last call that is written like it, and
other calls are read as the same where they are written like it too. -/
theorem planGroups_evaluates (none : source.scope.aggregates = [])
    (readable : ∀ expression ∈ select.summaries, expression.Readable)
    (planned : planGroups context select source = .ok rows) :
    ∃ keys aggregates, rows.plan = .aggregation keys aggregates source.plan ∧
      ∀ call ∈ select.calls, ∀ found, context.operand rows.scope call = .ok found →
        (∃ own, LastAlike (aggregateCalls select) call own ∧
          ∀ tuples, ∀ group ∈ groupsOf keys tuples,
            context.aggregateOf source.scope own group.rows =
              .ok (found.value (groupRow aggregates group))) ∧
        ∀ other ∈ select.calls,
          context.operand rows.scope other = .ok found ↔ call.Alike other := by
  obtain ⟨keys, -, planned⟩ := bind_eq_ok_iff.mp planned
  obtain ⟨aggregates, called, made⟩ := bind_eq_ok_iff.mp planned
  obtain rfl := pure_eq_ok_iff.mp made
  have plain := plainAggregate_of_planned none readable called
  have kept : ∀ own ∈ aggregateCalls select, own.PlainAggregate := fun own member =>
    plain own (withoutRepeats_subset (aggregateCalls_eq select ▸ member))
  refine ⟨keys.map Prod.fst, aggregates, rfl, fun call listed found read => ?_⟩
  obtain ⟨position, rfl, placed⟩ := operand_call_eq_ok (plain call listed).aggregate read
  simp only [List.length_map] at placed
  obtain ⟨before, own, after, split, rfl, written, others⟩ := last_of_lookup placed
  have among : ∀ item ∈ own :: after, item ∈ aggregateCalls select := fun item member => by
    rw [split]
    exact List.mem_append_right before member
  obtain ⟨first, rest⟩ := List.forall_mem_cons.mp among
  refine ⟨⟨own, ⟨before, after, split, ?_, fun later member alike => ?_⟩, ?_⟩, ?_⟩
  · exact (render_eq_iff (plain call listed) (kept own first)).mp written.symm
  · exact others later member
      ((render_eq_iff (plain call listed) (kept later (rest later member))).mpr alike).symm
  · intro tuples group member
    rw [split] at called
    obtain ⟨planned, stepped, result⟩ := mapM_getElem? called
    have width := key_length_of_mem_groupsOf member
    have value := value_groupRow width result
    rw [List.length_map] at value
    rw [value, PlanContext.aggregateOf, stepped]
    rfl
  · intro other also
    rw [← render_eq_iff (plain call listed) (plain other also)]
    refine ⟨fun shared => ?_, fun same => ?_⟩
    · obtain ⟨position, same, placed'⟩ := operand_call_eq_ok (plain other also).aggregate shared
      cases same
      simp only [List.length_map] at placed'
      obtain ⟨before', own', after', split', place, written', -⟩ := last_of_lookup placed'
      have tails := List.append_inj (split.symm.trans split') (by omega)
      obtain ⟨rfl, -⟩ := List.cons.inj tails.2
      exact written.symm.trans written'
    · exact operand_of_render (plain call listed).aggregate (plain other also).aggregate same read

end Groups

/-- The calls of aggregates on placeholders in a query that groups rows and shows all groups: the
functions, and the numbers of the placeholders. -/
def Language.placeholderCalls? (text : String) : Option (List (String × Nat)) :=
  match parseStatement text with
  | .ok (.select select, _) =>
    if select.isGrouped && select.having.isNone then
      some <| select.calls.filterMap fun call =>
        match call with
        | .call function [.parameter index] => some (function, index)
        | _ => none
    else none
  | _ => none

theorem Language.of_placeholderCalls? {text : String} {listed : List (String × Nat)}
    (found : placeholderCalls? text = some listed) :
    ∃ select count, parseStatement text = .ok (.select select, count) ∧ select.isGrouped = true ∧
      select.having = none ∧
      ∀ entry ∈ listed, .call entry.1 [.parameter entry.2] ∈ select.calls := by
  rw [placeholderCalls?] at found
  split at found
  · rename_i select count read
    split at found
    · rename_i form
      rw [Bool.and_eq_true, Option.isNone_iff_eq_none] at form
      cases found
      refine ⟨select, count, read, form.1, form.2, fun entry member => ?_⟩
      obtain ⟨call, among, made⟩ := List.mem_filterMap.mp member
      split at made
      · cases made
        exact among
      · cases made
    · cases found
  · cases found

namespace Database

variable {database : Database} {text : String} {parameters : List Value} {select : Select}
variable {count : Nat} {plan : QueryPlan}

/-- In a query that groups rows and is planned, every aggregate call that is looked at is a column
of the groups. In each group it has the value of the aggregate over the rows of the group, on the
operand of the last call that is written like it: that is the call itself, unless it is on a
placeholder, and then it is the last call of the function on any placeholder. The same column
stands for another call just where that is written like it. What is not looked at is what is
matched with a null. -/
theorem aggregate_calls_evaluate (reached : database.Reachable)
    (read : parseStatement text = .ok (.select select, count)) (grouped : select.isGrouped = true)
    (planned : planSelect { store := database.state.store, parameters } select = .ok plan) :
    let context : PlanContext := { store := database.state.store, parameters }
    ∃ source passed rows set keys aggregates,
      planSources context select = .ok source ∧
      planCondition context source select.condition = .ok passed ∧
      passed.plan.run context.store = .ok set ∧
      planGroups context select passed = .ok rows ∧
      rows.plan = .aggregation keys aggregates passed.plan ∧
      (rows.plan.run context.store).map RowSet.rows =
        .ok ((groupsOf keys set.rows).map (groupRow aggregates)) ∧
      ∀ call ∈ select.calls,
        (∃ condition ∈ select.having.toList, condition.MatchedWithNull parameters call) ∨
        ∃ operand own, context.operand rows.scope call = .ok operand ∧
          LastAlike (aggregateCalls select) call own ∧
          (∀ group ∈ groupsOf keys set.rows,
            context.aggregateOf passed.scope own group.rows =
              .ok (operand.value (groupRow aggregates group))) ∧
          ∀ other ∈ select.calls,
            context.operand rows.scope other = .ok operand ↔ call.Alike other := by
  intro context
  rw [planSelect_eq] at planned
  obtain ⟨unbounded, planned, -⟩ := map_eq_ok_iff.mp planned
  obtain ⟨source, sources, planned⟩ := bind_eq_ok_iff.mp planned
  obtain ⟨passed, filtered, planned⟩ := bind_eq_ok_iff.mp planned
  obtain ⟨rows, groups, shown⟩ := bind_eq_ok_iff.mp planned
  rw [planRows, if_pos grouped] at groups
  have none : passed.scope.aggregates = [] :=
    planCondition_scope filtered ▸ planSources_aggregates sources
  obtain ⟨set, ran⟩ := planCondition_runs
    (planSources_runs reached.wellFormed.current.store sources) filtered
  have readable : ∀ expression ∈ select.summaries, expression.Readable := fun _ member =>
    have allowed : ∀ token ∈ (Language.tokensOf text).tokens, True := fun _ _ => trivial
    ((select_of_parse read allowed).2.1 _ (summaries_subset member)).readable
  obtain ⟨keys, aggregates, form, evaluates⟩ := planGroups_evaluates none readable groups
  refine ⟨source, passed, rows, set, keys, aggregates, sources, filtered, ran, groups, form, ?_, ?_⟩
  · rw [form, QueryPlan.run, ran]
    rfl
  · intro call listed
    rcases planShown_answers (planGroups_intact none groups).2 shown call listed with
      ⟨operand, found⟩ | unread
    · obtain ⟨⟨own, last, values⟩, shared⟩ := evaluates call listed operand found
      exact .inr ⟨operand, own, found, last, values set.rows, shared⟩
    · exact .inl unread

/-- Both sums stand for the same column, and that is the sum of the second placeholder. -/
theorem sums_of_placeholders_shared :
    let database := fromTexts ["CREATE TABLE t (a TEXT)", "INSERT INTO t (a) VALUES ('x'), ('y')"]
    let request : Request :=
      { sql := "SELECT SUM(?), SUM(?) FROM t", parameters := [.integer 1, .integer 10]
        caller := .local }
    let context : PlanContext :=
      { store := database.state.store, parameters := request.parameters }
    (database.perform request).2 =
      .ok (.rows ⟨["SUM(?)", "SUM(?):1"], [[.integer 20, .integer 20]]⟩) ∧
    ∃ select passed rows operand, planGroups context select passed = .ok rows ∧
      context.operand rows.scope (.call "SUM" [.parameter 0]) = .ok operand ∧
      context.operand rows.scope (.call "SUM" [.parameter 1]) = .ok operand := by
  intro database request context
  have performed : (database.perform request).2 =
      .ok (.rows ⟨["SUM(?)", "SUM(?):1"], [[.integer 20, .integer 20]]⟩) := by decide +kernel
  have calls : Language.placeholderCalls? request.sql = some [("SUM", 0), ("SUM", 1)] := by
    decide +kernel
  have reached : database.Reachable := fromTexts_reachable
  clear_value database request
  obtain ⟨select, count, read, grouped, ungated, listed⟩ := Language.of_placeholderCalls? calls
  obtain ⟨first, second⟩ := List.forall_mem_cons.mp listed
  obtain ⟨-, plan, set, planned, -⟩ := query_select_eq_ok read (query_of_perform performed)
  obtain ⟨_, passed, rows, _, _, _, -, -, -, groups, -, -, evaluates⟩ :=
    aggregate_calls_evaluate reached read grouped planned
  obtain ⟨condition, gate, -⟩ | ⟨operand, own, looked, -, -, shared⟩ := evaluates _ first
  · rw [ungated] at gate
    cases gate
  · exact ⟨performed, select, passed, rows, operand, groups, looked,
      (shared _ (second _ List.mem_cons_self)).mpr (.inr ⟨_, _, _, rfl, rfl⟩)⟩

end Database

end Coffer
