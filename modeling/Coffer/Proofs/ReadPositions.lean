import Coffer.Proofs.AggregateCalls
import Coffer.Proofs.JoinedRows
import Coffer.Proofs.SelectedRows

namespace Coffer

/-! # The positions that a plan reads

Operands and sort keys of a plan are positions in tuples, and so are the targets of its changes. The
names of a scope stand side by side with the values of the tuples that it describes, through joins,
groups and projections. So each position is one of the tuple that it is looked up in, and no operand
falls back to the null of a missing one.
-/

open Coffer.Language (Expression Select SelectItem)

/-- Each result of a list that is read comes from an item of its own. -/
theorem forall₂_of_mapM {ε α β : Type} {step : α → Except ε β} {items : List α} {results : List β}
    (read : items.mapM step = .ok results) :
    List.Forall₂ (fun item result => step item = .ok result) items results := by
  induction items generalizing results with
  | nil =>
      cases read
      exact .nil
  | cons item rest ih =>
      rw [List.mapM_cons, bind_eq_ok_iff] at read
      obtain ⟨first, stepped, read⟩ := read
      obtain ⟨others, restRead, made⟩ := bind_eq_ok_iff.mp read
      obtain rfl := pure_eq_ok_iff.mp made
      exact .cons stepped (ih restRead)

theorem forall_of_mapM {ε α β : Type} {step : α → Except ε β} {items : List α} {results : List β}
    {property : β → Prop} (each : ∀ item result, step item = .ok result → property result)
    (read : items.mapM step = .ok results) : ∀ result ∈ results, property result := by
  intro result member
  obtain ⟨position, within, rfl⟩ := List.getElem_of_mem member
  have matched := forall₂_of_mapM read
  have inside : position < items.length := matched.length_eq ▸ within
  exact each _ _ ((List.forall₂_iff_get.mp matched).2 position inside within)

/-! ## Positions within a width -/

/-- Whether an operand has a value in tuples of a width. -/
def Operand.Within (width : Nat) : Operand → Prop
  | .column position => position < width
  | .constant _ => True

/-- A column within a tuple has a value there, and no null stands in for it. -/
theorem Operand.value_of_within {tuple : Tuple} {position : Nat}
    (within : (Operand.column position).Within tuple.length) :
    tuple[position]? = some ((Operand.column position).value tuple) := by
  have inside : position < tuple.length := within
  simp [Operand.value, List.getD_eq_getElem?_getD, inside]

namespace Predicate

/-- The operands that a predicate looks at. -/
def operands : Predicate → List Operand
  | .constant _ => []
  | .truthy operand => [operand]
  | .compare _ left right => [left, right]
  | .and left right => left.operands ++ right.operands
  | .or left right => left.operands ++ right.operands
  | .not predicate => predicate.operands
  | .like operand _ => [operand]
  | .isIn operand items => operand :: items
  | .between operand low high => [operand, low, high]
  | .isNull operand => [operand]

def Within (width : Nat) (predicate : Predicate) : Prop :=
  ∀ operand ∈ predicate.operands, operand.Within width

variable {operand : Expression → Except Error Operand} {expression left right : Expression}
variable {predicate : Predicate} {comparison : Comparison} {width : Nat}

theorem ofComparison_within
    (each : ∀ expression found, operand expression = .ok found → found.Within width)
    (read : ofComparison operand comparison left right = .ok predicate) : predicate.Within width := by
  obtain ⟨first, leftRead, read⟩ := bind_eq_ok_iff.mp read
  obtain ⟨second, rightRead, made⟩ := bind_eq_ok_iff.mp read
  obtain rfl := pure_eq_ok_iff.mp made
  simp [Within, operands, each left first leftRead, each right second rightRead]

theorem ofPattern_within
    (each : ∀ expression found, operand expression = .ok found → found.Within width)
    (read : ofPattern operand left right = .ok predicate) : predicate.Within width := by
  obtain ⟨pattern, -, read⟩ := bind_eq_ok_iff.mp read
  split at read
  · obtain rfl := pure_eq_ok_iff.mp read
    nofun
  · obtain ⟨matched, leftRead, read⟩ := bind_eq_ok_iff.mp read
    dsimp only at read
    split at read
    · obtain rfl := pure_eq_ok_iff.mp read
      exact List.forall_mem_singleton.mpr (each left matched leftRead)
    · cases read
  · cases read

/-- A predicate looks at nothing but the operands that are read for it. -/
theorem reading_within
    (each : ∀ expression found, operand expression = .ok found → found.Within width)
    (read : reading operand expression = .ok predicate) : predicate.Within width := by
  induction expression using Expression.induct generalizing predicate with
  | field | parameter | call =>
      obtain ⟨found, operandRead, rfl⟩ := map_eq_ok_iff.mp read
      have within := each _ found operandRead
      cases found with
      | column position => exact List.forall_mem_singleton.mpr within
      | constant value => nofun
  | literal value =>
      cases read
      nofun
  | star => cases read
  | binary operator left right first second =>
      have both {build : Predicate → Predicate → Predicate}
          (listed : ∀ one other, (build one other).operands = one.operands ++ other.operands)
          (read : (do
            let one ← reading operand left
            let other ← reading operand right
            return build one other) = .ok predicate) : predicate.Within width := by
        obtain ⟨one, leftRead, read⟩ := bind_eq_ok_iff.mp read
        obtain ⟨other, rightRead, made⟩ := bind_eq_ok_iff.mp read
        obtain rfl := pure_eq_ok_iff.mp made
        rw [Within, listed]
        exact List.forall_mem_append.mpr ⟨first leftRead, second rightRead⟩
      cases operator with
      | and => exact both (fun _ _ => rfl) read
      | or => exact both (fun _ _ => rfl) read
      | like => exact ofPattern_within each read
      | _ => exact ofComparison_within each read
  | not inner ih =>
      obtain ⟨found, innerRead, made⟩ := bind_eq_ok_iff.mp read
      obtain rfl := pure_eq_ok_iff.mp made
      have inside : found.Within width := ih innerRead
      exact inside
  | isNull inner =>
      obtain ⟨found, innerRead, made⟩ := bind_eq_ok_iff.mp read
      obtain rfl := pure_eq_ok_iff.mp made
      exact List.forall_mem_singleton.mpr (each inner found innerRead)
  | isIn inner items =>
      obtain ⟨found, innerRead, rest⟩ := bind_eq_ok_iff.mp read
      obtain ⟨listed, itemsRead, made⟩ := bind_eq_ok_iff.mp rest
      obtain rfl := pure_eq_ok_iff.mp made
      exact List.forall_mem_cons.mpr ⟨each inner found innerRead, forall_of_mapM each itemsRead⟩
  | between inner low high =>
      obtain ⟨found, innerRead, rest⟩ := bind_eq_ok_iff.mp read
      obtain ⟨least, lowRead, rest⟩ := bind_eq_ok_iff.mp rest
      obtain ⟨most, highRead, made⟩ := bind_eq_ok_iff.mp rest
      obtain rfl := pure_eq_ok_iff.mp made
      simp [Within, operands, each inner found innerRead, each low least lowRead,
        each high most highRead]

end Predicate

/-! ## Plans within their tuples -/

namespace QueryPlan

/-- Whether a tuple is among those that a plan gives. -/
def Gives (store : Store) (plan : QueryPlan) (row : Tuple) : Prop :=
  ∃ set, plan.run store = .ok set ∧ row ∈ set.rows

/-- Whether all positions in a plan are positions of the tuples that they are looked up in. -/
def InBounds (store : Store) : QueryPlan → Prop
  | .nothing => True
  | .values _ => True
  | .scan .. => True
  | .filter predicate source =>
    source.InBounds store ∧ ∀ row, source.Gives store row → predicate.Within row.length
  | .join _ predicate left right =>
    left.InBounds store ∧ right.InBounds store ∧
      ∀ first second, left.Gives store first → right.Gives store second →
        ∀ condition ∈ predicate, condition.Within (first ++ second).length
  | .aggregation keys aggregates source =>
    source.InBounds store ∧ ∀ row, source.Gives store row →
      (∀ key ∈ keys, key.Within row.length) ∧
        ∀ aggregate ∈ aggregates, aggregate.2.Within row.length
  | .projection columns source =>
    source.InBounds store ∧ ∀ row, source.Gives store row →
      ∀ column ∈ columns, column.1.Within row.length
  | .order terms source =>
    source.InBounds store ∧ ∀ row, source.Gives store row → ∀ term ∈ terms, term.1 < row.length
  | .distinct source => source.InBounds store
  | .offset _ source => source.InBounds store
  | .limit _ source => source.InBounds store

/-- Whether the tuples of a plan, and the columns that it announces, have a width. -/
def Wide (store : Store) (plan : QueryPlan) (width : Nat) : Prop :=
  ∀ set, plan.run store = .ok set →
    set.columns.length = width ∧ ∀ row ∈ set.rows, row.length = width

end QueryPlan

/-- Whether the positions by which rows are kept apart, numbered and told from each other are
positions of the columns. -/
structure Table.Placed (table : Table) : Prop where
  unique : ∀ position ∈ table.uniqueColumns, position < table.columns.length
  counted : ∀ position, table.countedPosition? = some position → position < table.columns.length
  key : ∀ position, table.primaryKeyPosition? = some position → position < table.columns.length

/-- Whether all positions in the plan of a statement are positions of the tuples that they are looked
up in, or that are changed there. -/
def Plan.InBounds (store : Store) : Plan → Prop
  | .insert table columns _ source =>
    source.InBounds store ∧ ∀ relation, store.relation table = .ok relation →
      relation.schema.Placed ∧ ∀ row, source.Gives store row →
        ∀ targets, insertTargets relation.schema columns row.length = .ok targets →
          ∀ position ∈ targets, position < relation.schema.columns.length
  | .update table filter assignments _ =>
    ∀ relation, store.relation table = .ok relation →
      relation.schema.Placed ∧ ∀ tuple ∈ relation.tuples,
        (∀ condition ∈ filter, condition.Within tuple.length) ∧
        ∀ assignment ∈ assignments,
          assignment.1 < tuple.length ∧ assignment.2.Within tuple.length
  | .delete table filter =>
    ∀ relation, store.relation table = .ok relation → ∀ tuple ∈ relation.tuples,
      ∀ condition ∈ filter, condition.Within tuple.length
  | .query plan => plan.InBounds store
  | _ => True

/-! ## Scopes -/

section Scopes

variable {context : PlanContext} {scope : Scope} {expression : Expression}

/-- Whether a scope has its aggregates among its columns. -/
def Scope.HoldsAggregates (scope : Scope) : Prop :=
  ∀ entry ∈ scope.aggregates, entry.2 < scope.columns.length

theorem Scope.holdsAggregates_of_nil (none : scope.aggregates = []) : scope.HoldsAggregates := by
  simp [HoldsAggregates, none]

theorem Scope.resolve_within {position : Nat} (held : scope.HoldsAggregates)
    (resolved : scope.resolve expression = .ok position) : position < scope.columns.length := by
  unfold Scope.resolve at resolved
  split at resolved
  · unfold Scope.resolveQualified at resolved
    split at resolved
    · cases resolved
    · split at resolved
      · rename_i found
        cases resolved
        exact (List.findIdx?_eq_some_iff_getElem.mp found).1
      · cases resolved
  · unfold Scope.resolveBare at resolved
    dsimp only at resolved
    split at resolved
    · cases resolved
    · rename_i single
      cases resolved
      have named : position ∈ [position] := List.mem_singleton.mpr rfl
      rw [← single] at named
      exact List.mem_range.mp (List.mem_filter.mp named).1
    · cases resolved
  · dsimp only at resolved
    split at resolved
    · split at resolved
      · rename_i found
        cases resolved
        obtain ⟨before, behind, split, -⟩ := List.lookup_eq_some_iff.mp found
        exact held _ (split ▸ List.mem_append_cons_self)
      · cases resolved
    · cases resolved
  · cases resolved

theorem operand_within {found : Operand} (held : scope.HoldsAggregates)
    (read : context.operand scope expression = .ok found) : found.Within scope.columns.length := by
  unfold PlanContext.operand Operand.ofExpression at read
  split at read
  · cases read
    trivial
  · split at read
    · cases read
      trivial
    · cases read
  · obtain ⟨position, resolved, rfl⟩ := map_eq_ok_iff.mp read
    exact scope.resolve_within held resolved
  · obtain ⟨position, resolved, rfl⟩ := map_eq_ok_iff.mp read
    exact scope.resolve_within held resolved
  · cases read

theorem predicate_within {predicate : Predicate} (held : scope.HoldsAggregates)
    (read : context.predicate scope expression = .ok predicate) :
    predicate.Within scope.columns.length :=
  Predicate.reading_within (fun _ _ => operand_within held) read

theorem predicate?_within {condition : Option Expression} {result : Option Predicate}
    (held : scope.HoldsAggregates) (read : context.predicate? scope condition = .ok result) :
    ∀ predicate ∈ result, predicate.Within scope.columns.length := by
  cases condition with
  | none =>
      cases read
      nofun
  | some expression =>
      obtain ⟨predicate, conditionRead, rfl⟩ := map_eq_ok_iff.mp read
      rintro _ ⟨⟩
      exact predicate_within held conditionRead

end Scopes

/-! ## Widths -/

namespace QueryPlan

variable {store : Store} {plan source left right : QueryPlan} {width other : Nat} {row : Tuple}

theorem Wide.of_gives (wide : plan.Wide store width) (given : plan.Gives store row) :
    row.length = width := by
  obtain ⟨set, ran, member⟩ := given
  exact (wide set ran).2 row member

/-- What only leaves rows out, or puts them in another order, keeps their width. -/
theorem Wide.of_mapRows {change : List Tuple → List Tuple} (wide : source.Wide store width)
    (eq : plan.run store = (source.run store).map fun set => set.mapRows change)
    (among : ∀ rows, change rows ⊆ rows) : plan.Wide store width := by
  intro set ran
  rw [eq] at ran
  obtain ⟨found, sourceRan, rfl⟩ := map_eq_ok_iff.mp ran
  obtain ⟨columns, rows⟩ := wide found sourceRan
  exact ⟨columns, fun row member => rows row (among found.rows member)⟩

theorem wide_projection (columns : List (Operand × String)) (source : QueryPlan) :
    (QueryPlan.projection columns source).Wide store columns.length := by
  intro set ran
  obtain ⟨found, -, rfl⟩ := map_eq_ok_iff.mp ran
  refine ⟨List.length_map _, fun row member => ?_⟩
  obtain ⟨given, -, rfl⟩ := List.mem_map.mp member
  exact List.length_map _

theorem wide_aggregation (keys : List Operand) (aggregates : List (Aggregate × Operand))
    (source : QueryPlan) :
    (QueryPlan.aggregation keys aggregates source).Wide store (keys.length + aggregates.length) := by
  intro set ran
  obtain ⟨found, -, rfl⟩ := map_eq_ok_iff.mp ran
  refine ⟨by simp [RowSet.aggregate], fun row member => ?_⟩
  obtain ⟨group, among, rfl⟩ := List.mem_map.mp member
  rw [groupRow, List.length_append, List.length_map, key_length_of_mem_groupsOf among]

theorem length_of_mem_joinRows {kind : Language.JoinKind} {predicate : Option Predicate}
    {lefts rights : List Tuple} (leftWide : ∀ l ∈ lefts, l.length = width)
    (rightWide : ∀ r ∈ rights, r.length = other)
    (member : row ∈ joinRows kind predicate width other lefts rights) :
    row.length = width + other := by
  cases kind with
  | inner | cross =>
      rw [joinRows, innerJoin_eq] at member
      exact length_of_mem_passingPairs leftWide rightWide member
  | left => exact length_of_mem_leftJoin leftWide rightWide member
  | right => exact length_of_mem_rightJoin leftWide rightWide member

/-- The nulls next to a row without a partner make up for the width of the other side. -/
theorem Wide.join {kind : Language.JoinKind} {predicate : Option Predicate}
    (first : left.Wide store width) (second : right.Wide store other) :
    (QueryPlan.join kind predicate left right).Wide store (width + other) := by
  intro set ran
  obtain ⟨leftSet, leftRan, ran⟩ := bind_eq_ok_iff.mp ran
  obtain ⟨rightSet, rightRan, made⟩ := bind_eq_ok_iff.mp ran
  obtain rfl := pure_eq_ok_iff.mp made
  obtain ⟨leftColumns, leftRows⟩ := first leftSet leftRan
  obtain ⟨rightColumns, rightRows⟩ := second rightSet rightRan
  refine ⟨by simp [RowSet.join, leftColumns, rightColumns], fun row member => ?_⟩
  simp only [RowSet.join, leftColumns, rightColumns] at member
  exact length_of_mem_joinRows leftRows rightRows member

end QueryPlan

/-- Whether a plan stays within its tuples, and its scope stands side by side with them. -/
structure Scoped.Covers (store : Store) (source : Scoped) : Prop where
  inBounds : source.plan.InBounds store
  wide : source.plan.Wide store source.scope.columns.length
  aggregates : source.scope.HoldsAggregates

/-! ## Queries -/

section Queries

variable {context : PlanContext} {select : Select} {source passed rows : Scoped} {scope : Scope}

theorem planTable_covers {reference : Language.TableReference}
    (named : ∀ entry ∈ context.store.relations.entries, entry.2.schema.name = entry.1)
    (planned : planTable context reference = .ok source) : source.Covers context.store := by
  obtain ⟨table, tabled, made⟩ := bind_eq_ok_iff.mp planned
  obtain rfl := pure_eq_ok_iff.mp made
  obtain ⟨relation, found, rfl⟩ := map_eq_ok_iff.mp tabled
  have name : relation.schema.name = reference.name :=
    named _ (Store.relation_eq_ok_iff.mp found)
  refine ⟨trivial, fun set ran => ?_, Scope.holdsAggregates_of_nil rfl⟩
  obtain ⟨scanned, again, rfl⟩ := map_eq_ok_iff.mp ran
  rw [name, found] at again
  cases again
  refine ⟨by simp [Scope.ofTable], fun row member => ?_⟩
  obtain ⟨stored, -, rfl⟩ := List.mem_map.mp member
  simp [Scope.ofTable, Table.length_columnNames, Table.length_tuple]

theorem Scoped.Covers.filter {predicate : Predicate} (covers : source.Covers context.store)
    (within : predicate.Within source.scope.columns.length) :
    Scoped.Covers context.store { source with plan := .filter predicate source.plan } where
  inBounds := ⟨covers.inBounds, fun _ given => (covers.wide.of_gives given).symm ▸ within⟩
  wide := covers.wide.of_mapRows rfl fun _ => List.filter_subset_self _
  aggregates := covers.aggregates

/-- The columns of the right side keep their distance from those of the left one. -/
theorem planJoin_covers {join : Language.Join} {joined : Scoped}
    (named : ∀ entry ∈ context.store.relations.entries, entry.2.schema.name = entry.1)
    (covers : source.Covers context.store)
    (planned : planJoin context source join = .ok joined) : joined.Covers context.store := by
  obtain ⟨right, tabled, planned⟩ := bind_eq_ok_iff.mp planned
  obtain ⟨scope, merged, planned⟩ := bind_eq_ok_iff.mp planned
  obtain ⟨predicate, read, made⟩ := bind_eq_ok_iff.mp planned
  obtain rfl := pure_eq_ok_iff.mp made
  have other := planTable_covers named tabled
  have columns : scope.columns = source.scope.columns ++ right.scope.columns := by
    rw [Scope.merge] at merged
    split at merged <;> cases merged
    rfl
  have width : scope.columns.length = source.scope.columns.length + right.scope.columns.length := by
    rw [columns, List.length_append]
  have held : scope.HoldsAggregates := by
    intro entry member
    rw [merge_aggregates merged] at member
    exact width ▸ Nat.lt_add_right _ (covers.aggregates entry member)
  refine ⟨⟨covers.inBounds, other.inBounds, fun first second left right condition member => ?_⟩,
    width ▸ covers.wide.join other.wide, held⟩
  rw [List.length_append, covers.wide.of_gives left, other.wide.of_gives right, ← width]
  exact predicate?_within held read condition member

theorem planSources_covers
    (named : ∀ entry ∈ context.store.relations.entries, entry.2.schema.name = entry.1)
    (planned : planSources context select = .ok source) : source.Covers context.store := by
  have joined {first : Scoped} (covers : first.Covers context.store)
      (planned : select.joins.foldlM (planJoin context) first = .ok source) :
      source.Covers context.store :=
    foldlM_ok_invariant (fun source => source.Covers context.store)
      (fun _ _ _ _ covers joined => planJoin_covers named covers joined) covers planned
  rw [planSources] at planned
  split at planned
  · obtain ⟨first, tabled, planned⟩ := bind_eq_ok_iff.mp planned
    exact joined (planTable_covers named tabled) planned
  · have empty : Scoped.Covers context.store ⟨.nothing, .empty⟩ := by
      refine ⟨trivial, fun set ran => ?_, Scope.holdsAggregates_of_nil rfl⟩
      cases ran
      exact ⟨rfl, List.forall_mem_singleton.mpr rfl⟩
    exact joined empty planned

theorem planCondition_covers {condition : Option Expression}
    (covers : source.Covers context.store)
    (planned : planCondition context source condition = .ok passed) :
    passed.Covers context.store := by
  cases condition with
  | none =>
      cases planned
      exact covers
  | some expression =>
      rw [planCondition, guarded_eq_ok_iff, bind_eq_ok_iff] at planned
      obtain ⟨-, predicate, read, made⟩ := planned
      obtain rfl := pure_eq_ok_iff.mp made
      exact covers.filter (predicate_within covers.aggregates read)

theorem planGroupKey_within {expression : Expression} {key : Operand × ScopeColumn}
    (held : scope.HoldsAggregates) (planned : planGroupKey context scope expression = .ok key) :
    key.1.Within scope.columns.length := by
  rw [planGroupKey, guarded_eq_ok_iff, bind_eq_ok_iff] at planned
  obtain ⟨-, operand, read, made⟩ := planned
  have within := operand_within held read
  dsimp only at made
  split at made <;> cases pure_eq_ok_iff.mp made <;> exact within

theorem planAggregate_within {call : Expression} {planned : Aggregate × Operand}
    (held : scope.HoldsAggregates) (read : planAggregate context scope call = .ok planned) :
    planned.2.Within scope.columns.length := by
  cases call with
  | call function arguments =>
      obtain ⟨aggregate, -, read⟩ := bind_eq_ok_iff.mp read
      dsimp only at read
      split at read
      · cases pure_eq_ok_iff.mp read
        trivial
      · obtain ⟨-, read⟩ := guarded_eq_ok_iff.mp read
        obtain ⟨operand, argumentRead, made⟩ := bind_eq_ok_iff.mp read
        cases pure_eq_ok_iff.mp made
        exact operand_within held argumentRead
      · cases read
  | _ => cases read

/-- The aggregates stand behind the keys, in the scope as in the tuples of the groups. -/
theorem planGroups_covers (covers : source.Covers context.store)
    (planned : planGroups context select source = .ok rows) : rows.Covers context.store := by
  obtain ⟨keys, keysRead, planned⟩ := bind_eq_ok_iff.mp planned
  obtain ⟨aggregates, called, made⟩ := bind_eq_ok_iff.mp planned
  obtain rfl := pure_eq_ok_iff.mp made
  have counted := (forall₂_of_mapM called).length_eq
  refine ⟨⟨covers.inBounds, fun row given => ?_⟩, ?_, fun entry member => ?_⟩
  · rw [covers.wide.of_gives given]
    exact ⟨List.forall_mem_map.mpr
        (forall_of_mapM (fun _ _ => planGroupKey_within covers.aggregates) keysRead),
      forall_of_mapM (fun _ _ => planAggregate_within covers.aggregates) called⟩
  · simpa [counted] using QueryPlan.wide_aggregation (keys.map Prod.fst) aggregates source.plan
  · have placed := (List.of_mem_zip (List.mem_reverse.mp member)).2
    obtain ⟨place, within, position⟩ := List.mem_map.mp placed
    have within := List.mem_range.mp within
    simp only [List.length_append, List.length_map, ← position] at within ⊢
    omega

theorem planRows_covers (covers : source.Covers context.store)
    (planned : planRows context select source = .ok rows) : rows.Covers context.store := by
  rw [planRows] at planned
  split at planned
  · exact planGroups_covers covers planned
  · cases planned
    exact covers

/-! ## What is shown -/

variable {columns all : List (Operand × String)} {terms : List (Nat × Bool)} {visible width : Nat}
variable {plan : QueryPlan}

theorem scopeColumns_within {positions : List Nat} :
    ∀ column ∈ scopeColumns scope positions, column.operand.Within scope.columns.length := by
  intro column member
  obtain ⟨position, -, made⟩ := List.mem_filterMap.mp member
  obtain ⟨named, found, rfl⟩ := Option.map_eq_some_iff.mp made
  exact (List.getElem?_eq_some_iff.mp found).1

theorem planItem_within {item : SelectItem} {grouped : Bool} {listed : List Labelled}
    (held : scope.HoldsAggregates)
    (planned : planItem context select grouped scope item = .ok listed) :
    ∀ column ∈ listed, column.operand.Within scope.columns.length := by
  cases item with
  | every =>
      simp only [planItem, guarded_eq_ok_iff, pure_eq_ok_iff] at planned
      obtain ⟨-, -, rfl⟩ := planned
      exact scopeColumns_within
  | everyOf relation =>
      simp only [planItem, guarded_eq_ok_iff, pure_eq_ok_iff] at planned
      obtain ⟨-, -, rfl⟩ := planned
      exact scopeColumns_within
  | expression value asName =>
      obtain ⟨operand, read, made⟩ := bind_eq_ok_iff.mp planned
      have within := operand_within held read
      split at made <;> cases pure_eq_ok_iff.mp made <;> exact List.forall_mem_singleton.mpr within

/-- A sort key is a column that is there, or becomes one behind all others. -/
theorem planSortKey_within {key : Expression} {planned : Nat × List (Operand × String)}
    (held : scope.HoldsAggregates) (shown : visible ≤ columns.length)
    (within : ∀ column ∈ columns, column.1.Within scope.columns.length)
    (read : planSortKey context scope visible columns key = .ok planned) :
    planned.1 < planned.2.length ∧ ∀ column ∈ planned.2, column.1.Within scope.columns.length := by
  unfold planSortKey at read
  split at read
  · obtain ⟨position, counted, made⟩ := bind_eq_ok_iff.mp read
    obtain rfl := pure_eq_ok_iff.mp made
    rw [listPosition] at counted
    split at counted
    · cases counted
      exact ⟨by dsimp only; omega, within⟩
    · cases counted
  · split at read
    · rename_i position labelled
      obtain rfl := pure_eq_ok_iff.mp read
      have inside := lt_of_labelPosition? labelled
      rw [List.length_map, List.length_take] at inside
      exact ⟨inside.trans_le (Nat.min_le_right _ _), within⟩
    · obtain ⟨operand, operandRead, read⟩ := bind_eq_ok_iff.mp read
      split at read
      · rename_i position found
        obtain rfl := pure_eq_ok_iff.mp read
        exact ⟨(List.findIdx?_eq_some_iff_getElem.mp found).1, within⟩
      · obtain rfl := pure_eq_ok_iff.mp read
        refine ⟨by simp, List.forall_mem_append.mpr ⟨within, ?_⟩⟩
        exact List.forall_mem_singleton.mpr (operand_within held operandRead)

theorem planOrdering_within {ordering : List Language.OrderTerm}
    {planned : List (Nat × Bool) × List (Operand × String)}
    (held : scope.HoldsAggregates) (shown : visible ≤ columns.length)
    (within : ∀ column ∈ columns, column.1.Within scope.columns.length)
    (read : planOrdering context scope visible columns ordering = .ok planned) :
    (∀ term ∈ planned.1, term.1 < planned.2.length) ∧
      ∀ column ∈ planned.2, column.1.Within scope.columns.length := by
  induction ordering generalizing columns planned with
  | nil =>
      cases read
      exact ⟨nofun, within⟩
  | cons term rest ih =>
      obtain ⟨⟨position, extended⟩, found, read⟩ := bind_eq_ok_iff.mp read
      obtain ⟨⟨positions, whole⟩, others, made⟩ := bind_eq_ok_iff.mp read
      obtain rfl := pure_eq_ok_iff.mp made
      obtain ⟨inside, wider⟩ := planSortKey_within held shown within found
      have longer : columns.length ≤ extended.length := (planSortKey_extends found).length_le
      obtain ⟨later, widest⟩ := ih (shown.trans longer) wider others
      have longest : extended.length ≤ whole.length := (planOrdering_extends others).length_le
      exact ⟨List.forall_mem_cons.mpr ⟨inside.trans_le longest, later⟩, widest⟩

/-- Rows are sorted while they have all columns, the hidden ones too. -/
theorem planOutput_inBounds {store : Store} (inBounds : plan.InBounds store)
    (wide : plan.Wide store width) (within : ∀ column ∈ all, column.1.Within width)
    (sorted : ∀ term ∈ terms, term.1 < all.length) :
    (planOutput visible all terms plan).InBounds store := by
  have projected : (QueryPlan.projection all plan).InBounds store :=
    ⟨inBounds, fun row given => wide.of_gives given ▸ within⟩
  have projectedWide : (QueryPlan.projection all plan).Wide store all.length :=
    QueryPlan.wide_projection all plan
  have ordered : (QueryPlan.order terms (.projection all plan)).InBounds store :=
    ⟨projected, fun row given => projectedWide.of_gives given ▸ sorted⟩
  have orderedWide : (QueryPlan.order terms (.projection all plan)).Wide store all.length :=
    projectedWide.of_mapRows rfl fun rows => (List.mergeSort_perm rows _).subset
  have cut {source : QueryPlan} (inBounds : source.InBounds store)
      (wide : source.Wide store all.length) (fewer : visible < all.length) {labels : List String} :
      (QueryPlan.projection (((List.range visible).map Operand.column).zip labels)
        source).InBounds store := by
    refine ⟨inBounds, fun row given column member => ?_⟩
    obtain ⟨position, shown, same⟩ := List.mem_map.mp (List.of_mem_zip member).1
    rw [← same, wide.of_gives given]
    exact (List.mem_range.mp shown).trans fewer
  have either : (if terms.isEmpty then QueryPlan.projection all plan
      else .order terms (.projection all plan)).InBounds store ∧
      (if terms.isEmpty then QueryPlan.projection all plan
        else .order terms (.projection all plan)).Wide store all.length := by
    split
    · exact ⟨projected, projectedWide⟩
    · exact ⟨ordered, orderedWide⟩
  rw [planOutput]
  split
  · rename_i fewer
    exact cut either.1 either.2 fewer
  · exact either.1

theorem planBounds_inBounds {store : Store} (inBounds : plan.InBounds store) :
    (planBounds select plan).InBounds store := by
  rw [planBounds]
  split <;> split <;> split <;> exact inBounds

theorem planShown_inBounds (covers : rows.Covers context.store)
    (planned : planShown context select rows = .ok plan) : plan.InBounds context.store := by
  obtain ⟨having, conditioned, planned⟩ := bind_eq_ok_iff.mp planned
  obtain ⟨items, listed, planned⟩ := bind_eq_ok_iff.mp planned
  obtain ⟨⟨terms, all⟩, ordered, made⟩ := bind_eq_ok_iff.mp planned
  obtain rfl := pure_eq_ok_iff.mp made
  have itemsWithin := forall_of_mapM (fun _ _ => planItem_within covers.aggregates) listed
  have within : ∀ column ∈ labelled [] items.flatten,
      column.1.Within rows.scope.columns.length := by
    intro column member
    have operand := List.mem_map_of_mem (f := Prod.fst) member
    rw [map_fst_labelled] at operand
    obtain ⟨labelled, among, same⟩ := List.mem_map.mp operand
    obtain ⟨item, listed, inside⟩ := List.mem_flatten.mp among
    exact same ▸ itemsWithin item listed labelled inside
  obtain ⟨sorted, wider⟩ := planOrdering_within covers.aggregates le_rfl within ordered
  cases having with
  | none => exact planOutput_inBounds covers.inBounds covers.wide wider sorted
  | some predicate =>
      have passing := covers.filter (predicate?_within covers.aggregates conditioned predicate rfl)
      exact planOutput_inBounds passing.inBounds passing.wide wider sorted

theorem planSelect_inBounds
    (named : ∀ entry ∈ context.store.relations.entries, entry.2.schema.name = entry.1)
    (planned : planSelect context select = .ok plan) : plan.InBounds context.store := by
  rw [planSelect_eq] at planned
  obtain ⟨shown, read, rfl⟩ := map_eq_ok_iff.mp planned
  obtain ⟨source, sources, read⟩ := bind_eq_ok_iff.mp read
  obtain ⟨passed, filtered, read⟩ := bind_eq_ok_iff.mp read
  obtain ⟨rows, grouped, read⟩ := bind_eq_ok_iff.mp read
  have covers := planRows_covers (planCondition_covers (planSources_covers named sources) filtered)
    grouped
  exact planBounds_inBounds (planShown_inBounds covers read)

end Queries

/-! ## Changes -/

namespace Table

variable {table : Table} {position width : Nat} {column : String}

theorem lt_of_position? (found : table.position? column = some position) :
    position < table.columns.length := by
  have within := (List.idxOf?_eq_some_iff.mp found).1
  rwa [length_columnNames] at within

theorem lt_of_position (found : table.position column = .ok position) :
    position < table.columns.length := by
  rw [Table.position] at found
  split at found
  · rename_i placed
    cases found
    exact lt_of_position? placed
  · cases found

theorem placed (table : Table) : table.Placed where
  unique position member := by
    rcases mem_uniqueColumns.mp member with declared | ⟨index, -, column, -, found⟩
    · obtain ⟨column, found, -⟩ := mem_declaredUnique.mp declared
      exact (List.getElem?_eq_some_iff.mp found).1
    · exact lt_of_position? found
  counted position found := by
    obtain ⟨column, -, placed⟩ := Option.bind_eq_some_iff.mp found
    exact lt_of_position? placed
  key _ found := (List.findIdx?_eq_some_iff_getElem.mp found).1

theorem lt_of_mem_insertTargets {columns : Option (List String)} {targets : List Nat}
    (targeted : insertTargets table columns width = .ok targets) :
    ∀ position ∈ targets, position < table.columns.length := by
  unfold insertTargets at targeted
  dsimp only at targeted
  split at targeted
  · split at targeted
    · cases targeted
    · exact forall_of_mapM (fun _ _ => lt_of_position) targeted
  · split at targeted
    · cases targeted
      exact fun _ => List.mem_range.mp
    · split at targeted
      · split at targeted
        · cases targeted
          exact fun _ member => List.mem_range.mp (List.mem_of_mem_filter member)
        · cases targeted
      · cases targeted

end Table

section Changes

variable {context : PlanContext} {plan : Plan} {table : Table}

theorem Scope.ofTable_holdsAggregates {asName : Option String} :
    (Scope.ofTable table asName).HoldsAggregates :=
  Scope.holdsAggregates_of_nil rfl

theorem length_ofTable (asName : Option String) :
    (Scope.ofTable table asName).columns.length = table.columns.length := by
  simp [Scope.ofTable, Table.length_columnNames]

/-- A table that a statement is planned for is the one that its plan finds. -/
theorem length_of_mem_tuples {name : String} {relation : Relation} {tuple : Tuple}
    (named : ∀ entry ∈ context.store.relations.entries, entry.2.schema.name = entry.1)
    (planned : context.store.table name = .ok table)
    (found : context.store.relation table.name = .ok relation) (member : tuple ∈ relation.tuples) :
    tuple.length = table.columns.length := by
  obtain ⟨stored, held, rfl⟩ := map_eq_ok_iff.mp planned
  rw [named _ (Store.relation_eq_ok_iff.mp held), held] at found
  cases found
  obtain ⟨row, -, rfl⟩ := List.mem_map.mp member
  exact Table.length_tuple

theorem planInsert_inBounds {insert : Language.Insert}
    (named : ∀ entry ∈ context.store.relations.entries, entry.2.schema.name = entry.1)
    (planned : planInsert context insert = .ok plan) : plan.InBounds context.store := by
  obtain ⟨table, -, planned⟩ := bind_eq_ok_iff.mp planned
  obtain ⟨-, -, planned⟩ := bind_eq_ok_iff.mp planned
  have targeted {source : QueryPlan} (inBounds : source.InBounds context.store) :
      (Plan.insert table.name insert.columns (insert.resolution.getD .abort) source).InBounds
        context.store :=
    ⟨inBounds, fun relation _ => ⟨relation.schema.placed, fun _ _ _ targeted =>
      Table.lt_of_mem_insertTargets targeted⟩⟩
  dsimp only at planned
  split at planned
  · obtain ⟨source, listed, made⟩ := bind_eq_ok_iff.mp planned
    obtain ⟨rows, -, rfl⟩ := map_eq_ok_iff.mp listed
    cases pure_eq_ok_iff.mp made
    exact targeted trivial
  · obtain ⟨source, selected, made⟩ := bind_eq_ok_iff.mp planned
    cases pure_eq_ok_iff.mp made
    exact targeted (planSelect_inBounds named selected)

theorem planUpdate_inBounds {update : Language.Update}
    (named : ∀ entry ∈ context.store.relations.entries, entry.2.schema.name = entry.1)
    (planned : planUpdate context update = .ok plan) : plan.InBounds context.store := by
  obtain ⟨table, tabled, planned⟩ := bind_eq_ok_iff.mp planned
  obtain ⟨filter, conditioned, planned⟩ := bind_eq_ok_iff.mp planned
  obtain ⟨assignments, assigned, made⟩ := bind_eq_ok_iff.mp planned
  obtain rfl := pure_eq_ok_iff.mp made
  refine fun relation found => ⟨relation.schema.placed, fun tuple member => ?_⟩
  rw [length_of_mem_tuples named tabled found member, ← length_ofTable none]
  refine ⟨predicate?_within Scope.ofTable_holdsAggregates conditioned,
    forall_of_mapM (fun assignment target read => ?_) assigned⟩
  obtain ⟨position, placed, read⟩ := bind_eq_ok_iff.mp read
  obtain ⟨operand, valueRead, made⟩ := bind_eq_ok_iff.mp read
  obtain rfl := pure_eq_ok_iff.mp made
  refine ⟨?_, operand_within Scope.ofTable_holdsAggregates valueRead⟩
  rw [length_ofTable]
  exact Table.lt_of_position placed

theorem planDelete_inBounds {delete : Language.Delete}
    (named : ∀ entry ∈ context.store.relations.entries, entry.2.schema.name = entry.1)
    (planned : planDelete context delete = .ok plan) : plan.InBounds context.store := by
  obtain ⟨table, tabled, planned⟩ := bind_eq_ok_iff.mp planned
  obtain ⟨filter, conditioned, made⟩ := bind_eq_ok_iff.mp planned
  obtain rfl := pure_eq_ok_iff.mp made
  intro relation found tuple member
  rw [length_of_mem_tuples named tabled found member, ← length_ofTable none]
  exact predicate?_within Scope.ofTable_holdsAggregates conditioned

/-- Against a store with all tables under their names, a statement gets a plan that looks at no
position beyond the end of a tuple: each of its operands, sort keys and targets of changes is a
position of every tuple that it is used on. -/
theorem planStatement_inBounds {statement : Language.Statement}
    (named : ∀ entry ∈ context.store.relations.entries, entry.2.schema.name = entry.1)
    (planned : planStatement context statement = .ok plan) : plan.InBounds context.store := by
  cases statement with
  | create create =>
      simp only [planStatement, planCreate] at planned
      split at planned
      · obtain ⟨columns, -, planned⟩ := bind_eq_ok_iff.mp planned
        obtain ⟨table, -, made⟩ := bind_eq_ok_iff.mp planned
        cases pure_eq_ok_iff.mp made
        trivial
      · cases planned
        trivial
      · cases planned
  | drop drop =>
      simp only [planStatement, planDrop] at planned
      split at planned <;> cases planned <;> trivial
  | alter alter =>
      simp only [planStatement, planAlter] at planned
      split at planned
      · obtain ⟨column, -, planned⟩ := bind_eq_ok_iff.mp planned
        obtain ⟨-, made⟩ := guarded_eq_ok_iff.mp planned
        cases pure_eq_ok_iff.mp made
        trivial
      all_goals
        cases planned
        trivial
  | insert insert => exact planInsert_inBounds named planned
  | update update => exact planUpdate_inBounds named planned
  | delete delete => exact planDelete_inBounds named planned
  | select select =>
      obtain ⟨query, selected, rfl⟩ := map_eq_ok_iff.mp planned
      exact planSelect_inBounds named selected
  | _ => cases planned

/-- Groups of joined rows, one of them without a partner, sorted by a maximum that is not shown. -/
theorem planStatement_inBounds_grouped :
    let database := Database.fromTexts
      ["CREATE TABLE t (a INTEGER, c INTEGER)", "CREATE TABLE u (b INTEGER)",
        "INSERT INTO t (a, c) VALUES (7, 1), (8, 2), (7, 3)",
        "INSERT INTO u (b) VALUES (9), (7), (8)"]
    let context : PlanContext := { store := database.state.store, parameters := [.integer 2] }
    let select : Select :=
      { distinct := false
        items := [.expression (.field none "b") none, .expression (.call "COUNT" [.star]) none]
        source := some ⟨"t", none⟩
        joins := [⟨.right, ⟨"u", some "v"⟩, some (.binary .equal (.field none "a") (.field none "b"))⟩]
        condition := none
        grouping := [.field (some "v") "b"]
        having := some (.binary .less (.call "COUNT" [.star]) (.parameter 0))
        ordering := [⟨.call "MAX" [.field (some "t") "c"], true⟩]
        limit := none
        offset := none }
    (∀ entry ∈ context.store.relations.entries, entry.2.schema.name = entry.1) ∧
    ∃ plan rows, planStatement context (.select select) = .ok (.query plan) ∧
      plan.InBounds context.store ∧ plan.run context.store = .ok rows ∧
      rows.columns = ["b", "COUNT(*)"] := by
  intro database context select
  have evaluated : ((planSelect context select).toOption.bind fun plan =>
      (plan.run context.store).toOption.map RowSet.columns) = some ["b", "COUNT(*)"] := by
    decide +kernel
  have reached : database.Reachable := Database.fromTexts_reachable
  clear_value database select
  have named : ∀ entry ∈ context.store.relations.entries, entry.2.schema.name = entry.1 :=
    reached.wellFormed.current.store.named
  obtain ⟨plan, accepted, shown⟩ := Option.bind_eq_some_iff.mp evaluated
  obtain ⟨rows, ran, columns⟩ := Option.map_eq_some_iff.mp shown
  have planned : planStatement context (.select select) = .ok (.query plan) :=
    map_eq_ok_iff.mpr ⟨plan, eq_ok_of_toOption accepted, rfl⟩
  exact ⟨named, plan, rows, planned, planStatement_inBounds named planned, eq_ok_of_toOption ran,
    columns⟩

end Changes

end Coffer
