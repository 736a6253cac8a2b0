import Coffer.Proofs.SelectReading

namespace Coffer.Language

/-! # Changes of rows read back -/

variable {bound : Nat} {rest : List Token}

theorem resolution?_reads (resolution : Option Resolution) :
    Reads bound resolution? (tokensIn (resolutionMarks resolution)) resolution []
      (Without (.keyword .or)) := by
  cases resolution with
  | none => exact (passes (.keyword .or)).bind (.pure none) fun _ ends => ends
  | some resolution =>
      have named : Resolution.ofName? resolution.token.text = some resolution := by
        cases resolution <;> decide +kernel
      refine (accepts (.keyword .or)).seq ?_
      refine ((takes resolution.token).last ?_).weaken fun _ _ => trivial
      rw [named]

theorem names_reads (names : List String) :
    Reads bound Reader.names (tokensIn (Mark.names names)) names [] Anything := by
  have each : Mark.names names = Mark.parenthesized (Mark.separated (names.map fun name => [.name name])) := rfl
  rw [each, tokensIn_parenthesized, tokensIn_separated, List.map_map, Reader.names]
  refine (expects (.symbol .openParen)).seq ?_
  cases names with
  | nil => exact (accepts (.symbol .closeParen)).seq (.pure [])
  | cons name others =>
      have read : Reads bound (Reader.separated Reader.name) _ (name :: others) _ _ :=
        separated_reads (List.cons_ne_nil name others) (fun other _ => takesName other) fun _ => trivial
      have numbers : (name :: others).flatMap (fun _ => []) = ([] : List Nat) :=
        List.flatMap_eq_nil_iff.mpr fun _ _ => rfl
      rw [numbers] at read
      refine (passes (.symbol .closeParen)).bind ?_ fun _ _ => without_cons nofun
      refine read.bind ((expects (.symbol .closeParen)).seq (.pure (name :: others))) fun _ _ => ?_
      exact ⟨trivial, without_cons (by decide)⟩

/-! ## Insertions -/

theorem valuesRow_reads {row : List Expression} (nonempty : row ≠ [])
    (faithful : ∀ expression ∈ row, expression.Faithful) :
    Reads bound valuesRow
      (tokensIn (Mark.parenthesized (Mark.separated (row.map Expression.marks)))) row
      (row.flatMap Expression.placeholders) Anything := by
  have read : Reads bound (Reader.separated anyExpression) _ row _ _ :=
    separated_reads nonempty (fun expression member => anyExpression_reads (faithful expression member))
      fun _ => follows_comma
  rw [tokensIn_parenthesized, tokensIn_separated, List.map_map, valuesRow,
    ← List.append_nil (row.flatMap Expression.placeholders)]
  refine (expects (.symbol .openParen)).seq ?_
  refine read.bind ((expects (.symbol .closeParen)).seq (.pure row)) fun _ _ => ?_
  exact ⟨follows_closeParen, without_cons (by decide)⟩

theorem insertSource_reads {source : InsertSource} (readable : source.Readable)
    (faithful : ∀ expression ∈ source.expressions, expression.Faithful) :
    Reads bound insertSource (tokensIn source.marks) source
      (source.expressions.flatMap Expression.placeholders) (· = []) := by
  cases source with
  | values rows =>
      obtain ⟨listed, nonempty⟩ := readable
      have read : Reads bound (Reader.separated valuesRow) _ rows _ _ :=
        separated_reads listed
          (fun row member => valuesRow_reads (nonempty row member) fun expression within =>
            faithful expression (List.mem_flatten_of_mem member within))
          fun _ => trivial
      have form : tokensIn (InsertSource.values rows).marks =
          [.keyword .values] ++ commaTokens (rows.map fun row =>
            tokensIn (Mark.parenthesized (Mark.separated (row.map Expression.marks)))) := by
        rw [InsertSource.marks, tokensIn_append, tokensIn_space, tokensIn_separated, List.map_map]
        rfl
      have numbers : (InsertSource.values rows).expressions.flatMap Expression.placeholders =
          [] ++ rows.flatMap fun row => row.flatMap Expression.placeholders := by
        rw [InsertSource.expressions, ← List.flatMap_id, List.flatMap_assoc]
        rfl
      rw [form, numbers, insertSource]
      refine .peeked ?_ fun _ _ => rfl
      rw [if_neg (by decide)]
      refine (expects (.keyword .values)).seq (read.map.weaken ?_)
      rintro rest rfl
      exact ⟨trivial, without_nil⟩
  | query query =>
      have read : Reads bound select _ query _ _ := select_reads readable faithful
      have leading : ∀ rest, (tokensIn query.marks ++ rest).head? = some (.keyword .select) := by
        intro rest
        rw [tokensIn_select]
        rfl
      refine .peeked ?_ fun rest _ => leading rest
      rw [if_pos rfl]
      exact read.map

theorem source_leads {source : InsertSource} :
    ∃ word others, tokensIn source.marks = .keyword word :: others := by
  cases source with
  | values rows => exact ⟨.values, _, rfl⟩
  | query query => exact ⟨.select, _, tokensIn_select⟩

/-- The tokens of the columns an insertion names. -/
def columnTokens : Option (List String) → List Token
  | none => []
  | some columns => tokensIn (Mark.names columns)

theorem tokensIn_insert {insertion : Insert} :
    tokensIn insertion.marks = [.keyword .insert] ++ (tokensIn (resolutionMarks insertion.resolution) ++
      ([.keyword .into] ++ ([.identifier insertion.table] ++
        (columnTokens insertion.columns ++ tokensIn insertion.source.marks)))) := by
  obtain ⟨resolution, table, columns, source⟩ := insertion
  rw [Insert.marks, Mark.word, tokensIn_token]
  simp only [tokensIn_append, List.append_assoc, tokensIn_clause]
  cases columns <;> rfl

theorem insert_reads {insertion : Insert} (readable : insertion.source.Readable)
    (faithful : ∀ expression ∈ insertion.source.expressions, expression.Faithful) :
    Reads bound insert (tokensIn insertion.marks) insertion
      (insertion.source.expressions.flatMap Expression.placeholders) (· = []) := by
  obtain ⟨resolution, table, columns, source⟩ := insertion
  have read : Reads bound insertSource _ source _ _ := insertSource_reads readable faithful
  rw [tokensIn_insert, insert]
  refine (expects (.keyword .insert)).seq ?_
  refine (resolution?_reads resolution).bind ?_ fun _ _ => without_cons nofun
  refine (expects (.keyword .into)).seq ((takesName table).seq ?_)
  cases columns with
  | none =>
      obtain ⟨word, others, form⟩ := @source_leads source
      refine .peeked ?_ fun rest _ => congrArg List.head? (congrArg (· ++ rest) form)
      rw [if_neg nofun]
      exact (Reads.pure none).seq read.map
  | some columns =>
      refine .peeked ?_ fun rest _ => rfl
      rw [if_pos rfl]
      exact (names_reads columns).seq ((Reads.pure (some columns)).seq read.map)

/-! ## Updates and deletions -/

/-- The tokens of an assignment. -/
def assignmentTokens (assignment : String × Expression) : List Token :=
  [.identifier assignment.1] ++ ([.symbol .equal] ++ tokensIn assignment.2.marks)

theorem assignmentsWithin_reads {assignment : String × Expression}
    {others : List (String × Expression)} {seen : List String} {limit : Nat}
    (distinct : ((assignment :: others).map Prod.fst).Nodup)
    (fresh : ∀ column ∈ (assignment :: others).map Prod.fst, column ∉ seen)
    (faithful : ∀ change ∈ assignment :: others, change.2.Faithful)
    (enough : others.length ≤ limit) :
    Reads bound (assignmentsWithin limit seen)
      (commaTokens ((assignment :: others).map assignmentTokens)) (assignment :: others)
      ((assignment :: others).flatMap fun change => change.2.placeholders)
      (fun rest => Follows 0 rest ∧ Without (.symbol .comma) rest) := by
  induction others generalizing assignment seen limit with
  | nil =>
      obtain ⟨column, value⟩ := assignment
      have read : Reads bound anyExpression _ _ _ _ :=
        anyExpression_reads (faithful (column, value) List.mem_cons_self)
      have form : commaTokens ([(column, value)].map assignmentTokens) =
          [.identifier column] ++ ([.symbol .equal] ++ (tokensIn value.marks ++ [])) := rfl
      rw [form, assignmentsWithin]
      refine (takesName column).seq ((expects (.symbol .equal)).seq (read.bind ?_ fun _ ends => ends.1))
      dsimp only
      rw [if_neg (fresh column List.mem_cons_self)]
      cases limit with
      | zero => exact .pure [(column, value)]
      | succ limit => exact (passes (.symbol .comma)).bind (.pure [(column, value)]) fun _ ends => ends.2
  | cons second others ih =>
      obtain ⟨column, value⟩ := assignment
      obtain ⟨limit, rfl⟩ : ∃ fewer, limit = fewer + 1 := ⟨limit - 1, by simp at enough; omega⟩
      obtain ⟨unseen, fresh⟩ := List.forall_mem_cons.mp fresh
      obtain ⟨new, distinct⟩ := List.nodup_cons.mp distinct
      obtain ⟨whole, faithful⟩ := List.forall_mem_cons.mp faithful
      have read : Reads bound anyExpression _ _ _ _ := anyExpression_reads whole
      have still : ∀ other ∈ (second :: others).map Prod.fst, other ∉ column :: seen := by
        intro other member repeated
        rcases List.mem_cons.mp repeated with rfl | before
        · exact new member
        · exact fresh other member before
      have further := ih distinct still faithful (Nat.le_of_succ_le_succ enough)
      have form : commaTokens (((column, value) :: second :: others).map assignmentTokens) =
          [.identifier column] ++ ([.symbol .equal] ++ (tokensIn value.marks ++
            ([.symbol .comma] ++ commaTokens ((second :: others).map assignmentTokens)))) := by
        rw [List.map_cons, List.map_cons, commaTokens_cons, assignmentTokens]
        simp only [List.append_assoc]
      rw [form, assignmentsWithin, List.flatMap_cons]
      refine (takesName column).seq ((expects (.symbol .equal)).seq (read.bind ?_ ?_))
      · dsimp only
        rw [if_neg unseen]
        refine (accepts (.symbol .comma)).seq ?_
        rw [if_pos rfl]
        exact further.map
      · exact fun _ _ => follows_comma

theorem assignments_read {changes : List (String × Expression)} (nonempty : changes ≠ [])
    (distinct : (changes.map Prod.fst).Nodup) (faithful : ∀ change ∈ changes, change.2.Faithful) :
    Reads bound assignments (commaTokens (changes.map assignmentTokens)) changes
      (changes.flatMap fun change => change.2.placeholders)
      (fun rest => Follows 0 rest ∧ Without (.symbol .comma) rest) := by
  obtain ⟨change, others, rfl⟩ := List.exists_cons_of_ne_nil nonempty
  intro first rest ends numbered room
  have enough : others.length ≤
      (commaTokens ((change :: others).map assignmentTokens) ++ rest).length := by
    rw [List.length_append]
    exact Nat.le_add_right_of_le length_le_commaTokens
  exact assignmentsWithin_reads distinct (fun _ _ => List.not_mem_nil) faithful enough ends numbered
    room

theorem tokensIn_update {change : Update} :
    tokensIn change.marks = [.keyword .update] ++ (tokensIn (resolutionMarks change.resolution) ++
      ([.identifier change.table] ++ ([.keyword .set] ++
        (commaTokens (change.assignments.map assignmentTokens) ++
          tokensIn (optionalClause [.«where»] change.condition))))) := by
  rw [Update.marks, Mark.word, tokensIn_token]
  simp only [tokensIn_append, List.append_assoc, tokensIn_clause, tokensIn_space,
    tokensIn_separated, List.map_map]
  rfl

theorem update_reads {change : Update} (readable : change.Readable)
    (faithful : ∀ expression ∈ change.expressions, expression.Faithful) :
    Reads bound update (tokensIn change.marks) change
      (change.expressions.flatMap Expression.placeholders) (· = []) := by
  obtain ⟨resolution, table, changes, condition⟩ := change
  simp only [Update.expressions, List.forall_mem_append, List.forall_mem_map] at faithful
  have assigned : Reads bound assignments _ changes _ _ :=
    assignments_read readable.assigned readable.distinct faithful.1
  have filtered : Reads bound (conditionAfter .«where») _ condition _ _ :=
    conditionAfter_reads faithful.2
  rw [tokensIn_update, update, Update.expressions, List.flatMap_append, List.flatMap_map]
  refine (expects (.keyword .update)).seq ?_
  refine (resolution?_reads resolution).bind ?_ fun _ _ => without_cons nofun
  refine (takesName table).seq ((expects (.keyword .set)).seq ?_)
  refine assigned.bind (filtered.map.weaken ?_) ?_
  · rintro rest rfl
    exact ⟨opensFrom_nil.item.1, without_nil⟩
  · rintro rest rfl
    have opens : OpensFrom 1 (tokensIn (optionalClause [.«where»] condition) ++ []) :=
      opensFrom_nil.append fun token head => by rw [ledBy_condition token head]; decide
    exact ⟨opens.item.1, opens.without (by decide)⟩

theorem delete_reads {removal : Delete}
    (faithful : ∀ expression ∈ removal.condition.toList, expression.Faithful) :
    Reads bound delete (tokensIn removal.marks) removal
      (removal.condition.toList.flatMap Expression.placeholders) (· = []) := by
  obtain ⟨table, condition⟩ := removal
  have filtered : Reads bound (conditionAfter .«where») _ condition _ _ :=
    conditionAfter_reads faithful
  have form : tokensIn (Delete.mk table condition).marks =
      [.keyword .delete] ++ ([.keyword .«from»] ++ ([.identifier table] ++
        tokensIn (optionalClause [.«where»] condition))) := by
    rw [Delete.marks, Mark.word, tokensIn_token]
    simp only [tokensIn_append, tokensIn_clause]
    rfl
  rw [form, delete]
  refine (expects (.keyword .delete)).seq ((expects (.keyword .«from»)).seq ((takesName table).seq ?_))
  refine filtered.map.weaken ?_
  rintro rest rfl
  exact ⟨opensFrom_nil.item.1, without_nil⟩

end Coffer.Language
