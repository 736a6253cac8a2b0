import Coffer.Proofs.FoundExpression
import Coffer.Proofs.ReadableStatement

namespace Coffer.Language

/-! # Queries that are found

Whatever the tokens are, a query that is found in them can be read, its names are among the
tokens, and its placeholders are numbered in the order in which they stand in its text.
-/

variable {α : Type} {allowed : Token → Prop}

/-- What was found that consists of expressions and has some property besides. -/
def Composed (allowed : Token → Prop) (expressions : α → List Expression) (good : α → Prop) :
    α → List Nat → Prop :=
  Bearing (fun value => (expressions value).flatMap Expression.placeholders) fun value =>
    (∀ expression ∈ expressions value, expression.Found allowed) ∧ good value

def TableReference.Named (allowed : Token → Prop) (reference : TableReference) : Prop :=
  allowed (.identifier reference.name) ∧ ∀ name ∈ reference.asName, allowed (.identifier name)

def SelectItem.Named (allowed : Token → Prop) : SelectItem → Prop
  | .every => True
  | .everyOf relation => allowed (.identifier relation)
  | .expression _ asName => ∀ name ∈ asName, allowed (.identifier name)

/-- A query as it is found where the given tokens are allowed. -/
structure Select.Found (allowed : Token → Prop) (select : Select) : Prop where
  readable : select.Readable
  items : ∀ item ∈ select.items, item.Named allowed
  source : ∀ table ∈ select.source, table.Named allowed
  joins : ∀ join ∈ select.joins, join.table.Named allowed

namespace Composed

variable {expressions : α → List Expression} {good : α → Prop} {reader : Reader α}

theorem separated (finds : Finds allowed reader (Composed allowed expressions good)) :
    Finds allowed (Reader.separated reader)
      (Composed allowed (fun values => values.flatMap expressions) fun values =>
        values ≠ [] ∧ ∀ value ∈ values, good value) := by
  refine (Finds.separated finds).weaken ?_
  rintro values _ ⟨rfl, nonempty, all⟩
  refine ⟨List.flatMap_assoc.symm, fun expression member => ?_, nonempty,
    fun value member => (all value member).2⟩
  obtain ⟨value, listed, within⟩ := List.mem_flatMap.mp member
  exact (all value listed).1 expression within

/-- What has no expressions has no placeholders. -/
theorem none {value : α} (empty : expressions value = []) (holds : good value) :
    Composed allowed expressions good value [] :=
  ⟨by simp [empty], by simp [empty], holds⟩

theorem one {value : α} {expression : Expression} (found : expression.Found allowed)
    (only : expressions value = [expression]) (holds : good value) :
    Composed allowed expressions good value expression.placeholders :=
  ⟨by simp [only], by simpa [only] using found, holds⟩

end Composed

theorem asName?_finds :
    Finds allowed asName? (Plain fun found => ∀ name ∈ found, allowed (.identifier name)) := by
  refine (Finds.accept _).seq fun _ _ => .ite (fun _ => ?_) fun _ => Finds.name?
  refine Finds.name.seq fun name permitted => .pure ⟨rfl, ?_⟩
  exact fun _ same => Option.mem_some_iff.mp same ▸ permitted

theorem selectItem_finds :
    Finds allowed selectItem
      (Composed allowed SelectItem.expressions fun item => item.Readable ∧ item.Named allowed) := by
  refine (Finds.accept _).seq fun _ _ => .ite (fun _ => ?_) fun _ => ?_
  · exact .pure (.none rfl ⟨nofun, trivial⟩)
  refine anyExpression_finds.bind ?_
  rintro value _ ⟨rfl, found⟩
  split
  · rename_i relation
    refine .pure (.none rfl ⟨nofun, ?_⟩)
    exact (found.named _ List.mem_cons_self).1 relation rfl
  · rename_i plain
    refine asName?_finds.seq fun asName named => .pure ?_
    rw [List.append_nil]
    refine .one found rfl ⟨?_, named⟩
    rintro relation other ⟨⟩
    exact plain relation rfl

theorem tableReference_finds :
    Finds allowed tableReference (Plain (TableReference.Named allowed)) := by
  refine Finds.name.seq fun name permitted => asName?_finds.seq fun asName named => ?_
  exact .pure ⟨rfl, permitted, named⟩

theorem joinWords_finds (kind : JoinKind) (token : Token) :
    Finds allowed (joinWords kind token) (Plain fun _ => True) := by
  unfold joinWords
  split
  · exact .pure ⟨rfl, trivial⟩
  · exact .pure ⟨rfl, trivial⟩
  · exact .ite (fun _ => (Finds.accept _).seq fun _ _ => Finds.expect _) fun _ => Finds.expect _

/-- A cross join alone has no condition. -/
def Join.Proper (allowed : Token → Prop) (join : Join) : Prop :=
  (join.kind = .cross ↔ join.condition = none) ∧ join.table.Named allowed

theorem joinsWithin_finds (limit : Nat) :
    Finds allowed (joinsWithin limit)
      (Composed allowed (fun joins => joins.flatMap fun join => join.condition.toList)
        fun joins => ∀ join ∈ joins, join.Proper allowed) := by
  have finish {reader : Reader (List Join)} (join : Join) (proper : join.Proper allowed)
      (found : ∀ condition ∈ join.condition.toList, condition.Found allowed)
      (finds : Finds allowed reader
        (Composed allowed (fun joins => joins.flatMap fun join => join.condition.toList)
          fun joins => ∀ join ∈ joins, join.Proper allowed)) :
      Finds allowed (reader >>= fun rest => pure (join :: rest)) fun joins more =>
        Composed allowed (fun joins => joins.flatMap fun join => join.condition.toList)
          (fun joins => ∀ join ∈ joins, join.Proper allowed) joins
          (join.condition.toList.flatMap Expression.placeholders ++ more) := by
    refine finds.map ?_
    rintro rest _ ⟨rfl, others, all⟩
    exact ⟨List.flatMap_append.symm, List.forall_mem_append.mpr ⟨found, others⟩,
      List.forall_mem_cons.mpr ⟨proper, all⟩⟩
  induction limit with
  | zero => exact .pure (.none rfl nofun)
  | succ limit ih =>
      refine Finds.peek.seq fun seen _ => ?_
      split
      · exact .pure (.none rfl nofun)
      · rename_i kind _
        refine Finds.next.seq fun first _ => (joinWords_finds kind first).seq fun _ _ => ?_
        refine tableReference_finds.seq fun table named => .ite (fun crossed => ?_) fun joined => ?_
        · exact .handed (finish ⟨kind, table, none⟩ ⟨by simp [crossed], named⟩ nofun ih)
        · refine (Finds.expect _).seq fun _ _ => anyExpression_finds.bind ?_
          rintro condition _ ⟨rfl, found⟩
          refine .handed ?_
          have single : [condition].flatMap Expression.placeholders = condition.placeholders :=
            List.flatMap_singleton _ _
          rw [← single]
          exact finish ⟨kind, table, some condition⟩ ⟨by simp [joined], named⟩
            (List.forall_mem_singleton.mpr found) ih

theorem joins_finds :
    Finds allowed joins
      (Composed allowed (fun joins => joins.flatMap fun join => join.condition.toList)
        fun joins => ∀ join ∈ joins, join.Proper allowed) :=
  fun cursor _ _ given ran => joinsWithin_finds (cursor.tokens.length + 1) given ran

theorem conditionAfter_finds (keyword : Keyword) :
    Finds allowed (conditionAfter keyword)
      (Composed allowed Option.toList fun _ => True) := by
  refine (Finds.accept _).seq fun _ _ => .ite (fun _ => ?_) fun _ => .pure (.none rfl trivial)
  refine anyExpression_finds.map ?_
  rintro condition _ ⟨rfl, found⟩
  exact .one found rfl trivial

theorem orderTerm_finds :
    Finds allowed orderTerm (Composed allowed (fun term => [term.key]) fun _ => True) := by
  refine anyExpression_finds.bind ?_
  rintro key _ ⟨rfl, found⟩
  refine (Finds.takeIf _).seq fun _ _ => .pure ?_
  rw [List.append_nil]
  exact .one found rfl trivial

theorem listAfter_finds {first second : Keyword} {item : Reader α}
    {expressions : α → List Expression}
    (finds : Finds allowed item (Composed allowed expressions fun _ => True)) :
    Finds allowed (listAfter first second item)
      (Composed allowed (fun values => values.flatMap expressions) fun _ => True) := by
  refine (Finds.accept _).seq fun _ _ => .ite (fun _ => ?_) fun _ => .pure (.none rfl trivial)
  refine (Finds.expect _).seq fun _ _ => (Composed.separated finds).weaken ?_
  rintro values _ ⟨rfl, found, -⟩
  exact ⟨rfl, found, trivial⟩

/-- Bounds on the rows of a query fit into 64 bits. -/
def Bounds (bounds : Option Nat × Option Nat) : Prop :=
  (∀ count ∈ bounds.1, count < Nat.pow 2 64) ∧ ∀ count ∈ bounds.2, count < Nat.pow 2 64

theorem bounds_finds : Finds allowed bounds (Plain Bounds) := by
  have offset (limit early : Option Nat) (bounded : Bounds (limit, early)) :
      Finds allowed (do
        if ← Reader.acceptWord .offset then
          let offset ← Reader.count
          return (limit, some offset)
        else return (limit, early)) (Plain Bounds) := by
    refine (Finds.accept _).seq fun _ _ => .ite (fun _ => ?_) fun _ => .pure ⟨rfl, bounded⟩
    refine Finds.count.seq fun count fits => .pure ⟨rfl, bounded.1, ?_⟩
    exact fun _ same => Option.mem_some_iff.mp same ▸ fits
  have none : ∀ count ∈ (none : Option Nat), count < Nat.pow 2 64 := nofun
  refine (Finds.accept _).seq fun _ _ => .ite (fun _ => ?_) fun _ => ?_
  · refine Finds.count.seq fun first fits => (Finds.accept _).seq fun _ _ => ?_
    refine .ite (fun _ => Finds.count.seq fun second fits' => ?_) fun _ => ?_
    · exact .handed (offset _ _ ⟨fun _ same => Option.mem_some_iff.mp same ▸ fits',
        fun _ same => Option.mem_some_iff.mp same ▸ fits⟩)
    · exact .handed (offset _ _ ⟨fun _ same => Option.mem_some_iff.mp same ▸ fits, none⟩)
  · exact .handed (offset _ _ ⟨none, none⟩)

/-- The clauses after FROM, given what stands before them. -/
theorem clauses_find {distinct : Bool} {items : List SelectItem} {source : Option TableReference}
    {joined : List Join} {first second : List Nat}
    (listed : Composed allowed (fun items => items.flatMap SelectItem.expressions)
      (fun items => items ≠ [] ∧ ∀ item ∈ items, item.Readable ∧ item.Named allowed) items first)
    (proper : Composed allowed (fun joins => joins.flatMap fun join => join.condition.toList)
      (fun joins => ∀ join ∈ joins, join.Proper allowed) joined second)
    (named : ∀ table ∈ source, table.Named allowed) (unjoined : source = none → joined = []) :
    Finds allowed (do
      let condition ← conditionAfter .«where»
      let grouping ← listAfter .group .«by» anyExpression
      let having ← conditionAfter .having
      let ordering ← listAfter .order .«by» orderTerm
      let (limit, offset) ← bounds
      return { distinct, items, source, joins := joined, condition, grouping, having, ordering
               limit, offset })
      fun select more =>
        Composed allowed Select.expressions (Select.Found allowed) select
          (first ++ (second ++ more)) := by
  obtain ⟨rfl, inItems, nonempty, readable⟩ := listed
  obtain ⟨rfl, inJoins, joins⟩ := proper
  refine (conditionAfter_finds .«where»).bind ?_
  rintro condition _ ⟨rfl, inCondition, -⟩
  have keys : Finds allowed anyExpression (Composed allowed (fun key => [key]) fun _ => True) :=
    anyExpression_finds.weaken fun _ _ ⟨same, found⟩ => same ▸ .one found rfl trivial
  refine (listAfter_finds keys).bind ?_
  rintro grouping _ ⟨rfl, inGrouping, -⟩
  refine (conditionAfter_finds .having).bind ?_
  rintro having _ ⟨rfl, inHaving, -⟩
  refine (listAfter_finds orderTerm_finds).bind ?_
  rintro ordering _ ⟨rfl, inOrdering, -⟩
  refine bounds_finds.seq ?_
  rintro ⟨limit, offset⟩ ⟨limited, skipped⟩
  refine .pure ⟨?_, ?_, ?_⟩
  · simp [Select.expressions, List.flatMap_append, List.flatMap_singleton', List.map_eq_flatMap]
  · simp only [List.flatMap_singleton'] at inGrouping
    simp only [← List.map_eq_flatMap] at inOrdering
    simp only [Select.expressions, List.forall_mem_append]
    exact ⟨inItems, inJoins, inCondition, inGrouping, inHaving, inOrdering⟩
  · exact {
      readable := {
        listed := nonempty
        items := fun item member => (readable item member).1
        unjoined
        joins := fun join member => (joins join member).1
        limit := limited
        offset := skipped }
      items := fun item member => (readable item member).2
      source := named
      joins := fun join member => (joins join member).2 }

theorem select_finds :
    Finds allowed select (Composed allowed Select.expressions (Select.Found allowed)) := by
  refine (Finds.expect _).seq fun _ _ => (Finds.accept _).seq fun distinct _ => ?_
  refine .ite (fun _ => (Finds.accept _).seq fun _ _ => ?_) fun _ => ?_
  -- With ALL or without it, the same list and the same clauses are read next.
  all_goals
    refine (Composed.separated selectItem_finds).bind fun items first listed => ?_
    refine (Finds.accept _).seq fun _ _ => .ite (fun _ => ?_) fun _ => ?_
    · refine tableReference_finds.seq fun table named => ?_
      refine joins_finds.bind fun joined second proper => ?_
      exact .handed (clauses_find listed proper
        (fun _ same => Option.mem_some_iff.mp same ▸ named) (by simp))
    · exact .handed (clauses_find listed (.none rfl (by simp)) (by simp) fun _ => rfl)

end Coffer.Language
