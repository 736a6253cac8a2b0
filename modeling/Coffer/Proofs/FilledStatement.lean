import Coffer.Proofs.FilledExpression
import Coffer.Proofs.FoundStatement

namespace Coffer.Language

/-! # Changes of rows in filled text

A text that holds rows to insert, an update or a deletion still does so, once there are literals in
the places of its placeholders.
-/

variable {values : List Literal} {room : Nat} {text : String} {cursor after : Cursor}

/-- Whether a statement changes rows by the values that it has itself. -/
def Statement.ChangesRows : Statement → Prop
  | .insert body => ∃ rows, body.source = .values rows
  | .update _ => True
  | .delete _ => True
  | _ => False

instance : DecidablePred Statement.ChangesRows
  | .insert { source := .values rows, .. } => isTrue ⟨rows, rfl⟩
  | .insert { source := .query _, .. } => isFalse fun ⟨_, form⟩ => nomatch form
  | .update _ => isTrue trivial
  | .delete _ => isTrue trivial
  | .select _ | .create _ | .drop _ | .alter _ | .grant _ | .revoke _ => isFalse id
  | .begin | .commit | .rollback => isFalse id

/-! ## Parts -/

theorem conditionAfter_mirrors (writable : Writable values) {keyword : Keyword}
    (plain : startsFiller (.keyword keyword) = false) :
    Mirrors values room 0 (conditionAfter keyword) (Option.map (Expression.filled values))
      (conditionAfter keyword) := by
  refine .accept writable plain (fun _ => ?_) (.pure rfl)
  refine Mirrors.mono ?_ (Nat.le_refl _) (Nat.zero_le 1)
  exact (anyExpression_mirrors writable).map fun _ => rfl

theorem resolution?_mirrors (writable : Writable values) :
    Mirrors values room 0 resolution? id resolution? := by
  refine .accept writable rfl (fun _ => ?_) (.pure rfl)
  refine Mirrors.mono ?_ (Nat.le_refl _) (Nat.zero_le (1 + 0))
  refine .next (fun cursor result ran => ?_) fun word _ _ => ?_
  · have unknown : Resolution.ofName? (Token.symbol .question).text = none := by decide +kernel
    rw [unknown] at ran
    cases ran
  · split
    · exact .pure rfl
    · exact .throw

theorem names_mirrors (writable : Writable values) :
    Mirrors values room 1 Reader.names id Reader.names := by
  refine Mirrors.mono ?_ (Nat.le_refl _) (Nat.le_add_right 1 0)
  refine (Mirrors.expect (by decide)).bind fun _ _ => ?_
  refine .accept writable rfl (fun _ => .pure rfl) ?_
  refine Mirrors.mono ?_ (Nat.le_refl _) (Nat.zero_le (1 + 1))
  have listed : Mirrors values (room - 1) 1 (Reader.separated Reader.name) (List.map id) _ :=
    Mirrors.separated writable fun _ _ => Mirrors.name
  refine listed.bind fun names _ => (Mirrors.expect (by decide)).map fun _ => ?_
  exact (List.map_id names).symm

/-! ## Insertions -/

theorem valuesRow_mirrors (writable : Writable values) :
    Mirrors values room 1 valuesRow (List.map (Expression.filled values)) valuesRow := by
  refine Mirrors.mono ?_ (Nat.le_refl _) (Nat.le_add_right 1 (1 + 1))
  refine (Mirrors.expect (by decide)).bind fun _ _ => ?_
  refine (Mirrors.separated writable fun _ _ => anyExpression_mirrors writable).bind fun row _ => ?_
  exact (Mirrors.expect (by decide)).map fun _ => rfl

/-- Reads rows as the source of an insertion, and no query. -/
def rowsSource : Reader InsertSource := do
  Reader.expectWord .values
  let rows ← Reader.separated valuesRow
  return .values rows

theorem rowsSource_of_source {rows : List (List Expression)}
    (read : insertSource cursor = .ok (.values rows, after)) :
    rowsSource cursor = .ok (.values rows, after) := by
  rw [insertSource] at read
  obtain ⟨seen, middle, peeked, read⟩ := Reader.bind_eq_ok_iff.mp read
  obtain ⟨-, rfl⟩ := Reader.peek_eq_ok peeked
  split at read
  · obtain ⟨query, last, -, made⟩ := Reader.bind_eq_ok_iff.mp read
    obtain ⟨same, -⟩ := Reader.pure_eq_ok_iff.mp made
    cases same
  · exact read

theorem source_of_rowsSource {source : InsertSource}
    (read : rowsSource cursor = .ok (source, after)) :
    insertSource cursor = .ok (source, after) := by
  obtain ⟨tokens, fault, first⟩ := cursor
  obtain ⟨_, middle, expected, -⟩ := Reader.bind_eq_ok_iff.mp read
  obtain ⟨token, last, taken, checked⟩ := Reader.bind_eq_ok_iff.mp expected
  cases tokens with
  | nil => cases taken
  | cons head rest =>
      cases taken
      split at checked
      · rename_i same
        subst same
        exact read
      · cases checked

theorem rowsSource_mirrors (writable : Writable values) :
    Mirrors values room 0 rowsSource (InsertSource.replaced (fillerOf values)) insertSource := by
  have rows : Mirrors values room (1 + 1) rowsSource (InsertSource.replaced (fillerOf values))
      rowsSource := by
    refine (Mirrors.expect (by decide)).bind fun _ _ => ?_
    exact (Mirrors.separated writable fun _ _ => valuesRow_mirrors writable).map fun _ => rfl
  intro cursor enough source after ran
  obtain ⟨steps, same⟩ := rows.mono (Nat.le_refl _) (Nat.zero_le _) enough ran
  exact ⟨steps, fun given => source_of_rowsSource (same given)⟩

/-- Reads an insertion, its source by a reader of choice. -/
def insertFrom (sources : Reader InsertSource) : Reader Insert := do
  Reader.expectWord .insert
  let resolution ← resolution?
  Reader.expectWord .into
  let table ← Reader.name
  let columns ←
    if (← Reader.peek) = some (.symbol .openParen) then do
      let found ← Reader.names
      pure (some found)
    else pure none
  let source ← sources
  return { resolution, table, columns, source }

theorem insertFrom_mirrors (writable : Writable values) :
    Mirrors values room 0 (insertFrom rowsSource) (Insert.replaced (fillerOf values)) insert := by
  have sourced (resolution : Option Resolution) (table : String) (columns : Option (List String))
      {room : Nat} :
      Mirrors values room 0
        (rowsSource >>= fun source => pure ({ resolution, table, columns, source } : Insert))
        (Insert.replaced (fillerOf values))
        (insertSource >>= fun source => pure { resolution, table, columns, source }) :=
    (rowsSource_mirrors writable).map fun _ => rfl
  refine Mirrors.mono ?_ (Nat.le_refl _) (Nat.zero_le (1 + (0 + (1 + (1 + 0)))))
  refine (Mirrors.expect (by decide)).bind fun _ _ => ?_
  refine (resolution?_mirrors writable).bind fun resolution _ => ?_
  refine (Mirrors.expect (by decide)).bind fun _ _ => ?_
  refine Mirrors.name.bind fun table _ => ?_
  refine .look looks_peek writable ?_ (fun token rest fault first _ fits => ?_)
    fun token rest fault first starts fits => ?_
  · exact .ite (fun same => nomatch same) fun _ => .handed (sourced resolution table none)
  · refine Mirrors.ite (fun _ => ?_) (fun _ => ?_) fits
    · refine Mirrors.mono ?_ (Nat.le_refl _) (Nat.zero_le (1 + 0))
      refine (names_mirrors writable).bind fun found _ => ?_
      exact .handed (sourced resolution table (some found))
    · exact .handed (sourced resolution table none)
  · have apart : (some token : Option Token) ≠ some (.symbol .openParen) := by
      rintro ⟨⟩
      cases starts
    rw [if_neg (by decide), if_neg apart]
    exact Mirrors.handed (sourced resolution table none) fits

theorem insertFrom_rows {found : Insert} {rows : List (List Expression)}
    (read : insert cursor = .ok (found, after)) (form : found.source = .values rows) :
    insertFrom rowsSource cursor = .ok (found, after) := by
  have sourced (resolution : Option Resolution) (table : String) (columns : Option (List String))
      {cursor : Cursor}
      (read : (insertSource >>= fun source =>
        pure ({ resolution, table, columns, source } : Insert)) cursor = .ok (found, after)) :
      (rowsSource >>= fun source =>
        pure ({ resolution, table, columns, source } : Insert)) cursor = .ok (found, after) := by
    obtain ⟨source, middle, taken, made⟩ := Reader.bind_eq_ok_iff.mp read
    obtain ⟨rfl, rfl⟩ := Reader.pure_eq_ok_iff.mp made
    obtain rfl : source = .values rows := form
    rw [Reader.bind_ok (rowsSource_of_source taken)]
    rfl
  refine Reader.bind_ok_mono read fun _ _ read => Reader.bind_ok_mono read fun resolution _ read => ?_
  refine Reader.bind_ok_mono read fun _ _ read => Reader.bind_ok_mono read fun table _ read => ?_
  refine Reader.bind_ok_mono read fun seen _ read => ?_
  split at read
  · rw [if_pos ‹_›]
    refine Reader.bind_ok_mono read fun found _ read => ?_
    exact sourced resolution table (some found) read
  · rw [if_neg ‹_›]
    exact sourced resolution table none read

/-! ## Updates and deletions -/

theorem assignmentsWithin_mirrors (writable : Writable values) {limit wider : Nat}
    {seen : List String} (enough : room ≤ limit) (wide : limit ≤ wider) :
    Mirrors values room 0 (assignmentsWithin limit seen)
      (List.map (assignmentReplaced (fillerOf values))) (assignmentsWithin wider seen) := by
  induction limit generalizing room wider seen with
  | zero =>
      -- A name takes a token, and there is none.
      refine Mirrors.mono ?_ (Nat.le_refl _) (Nat.zero_le (1 + 0))
      cases wider <;>
        exact Mirrors.name.bind fun _ some => absurd (Nat.le_trans some enough) (by decide)
  | succ limit ih =>
      obtain ⟨wider, rfl⟩ : ∃ fewer, wider = fewer + 1 := ⟨wider - 1, by omega⟩
      rw [assignmentsWithin, assignmentsWithin]
      refine Mirrors.mono ?_ (Nat.le_refl _) (Nat.zero_le (1 + (1 + (1 + 0))))
      refine Mirrors.name.bind fun column _ => (Mirrors.expect (by decide)).bind fun _ _ => ?_
      refine (anyExpression_mirrors writable).bind fun value _ => .ite (fun _ => ?_) fun _ => ?_
      · exact .throw
      · refine .accept writable rfl (fun _ => ?_) (.pure rfl)
        exact (ih (by omega) (by omega)).map fun _ => rfl

theorem assignments_mirrors (writable : Writable values) :
    Mirrors values room 0 assignments (List.map (assignmentReplaced (fillerOf values)))
      assignments := by
  rintro ⟨tokens, fault, first⟩ enough found after ran
  exact assignmentsWithin_mirrors writable (Nat.le_refl _) (length_le_filled writable) (Nat.le_refl _)
    ran

theorem update_mirrors (writable : Writable values) :
    Mirrors values room 0 update (Update.replaced (fillerOf values)) update := by
  refine Mirrors.mono ?_ (Nat.le_refl _) (Nat.zero_le (1 + (0 + (1 + (1 + (0 + 0))))))
  refine (Mirrors.expect (by decide)).bind fun _ _ => ?_
  refine (resolution?_mirrors writable).bind fun resolution _ => ?_
  refine Mirrors.name.bind fun table _ => (Mirrors.expect (by decide)).bind fun _ _ => ?_
  refine (assignments_mirrors writable).bind fun assignments _ => ?_
  exact (conditionAfter_mirrors writable rfl).map fun condition => rfl

theorem delete_mirrors (writable : Writable values) :
    Mirrors values room 0 delete (Delete.replaced (fillerOf values)) delete := by
  refine Mirrors.mono ?_ (Nat.le_refl _) (Nat.zero_le (1 + (1 + (1 + 0))))
  refine (Mirrors.expect (by decide)).bind fun _ _ => (Mirrors.expect (by decide)).bind fun _ _ => ?_
  refine Mirrors.name.bind fun table _ => ?_
  exact (conditionAfter_mirrors writable rfl).map fun condition => rfl

/-! ## Whole statements -/

theorem ended_eq_ok {value : Unit} (read : Reader.ended cursor = .ok (value, after)) :
    cursor.fault = none ∧ after = cursor := by
  obtain ⟨seen, middle, peeked, read⟩ := Reader.bind_eq_ok_iff.mp read
  obtain ⟨head, rfl⟩ := Reader.peek_eq_ok peeked
  cases seen with
  | some token => exact absurd read Reader.throw_ne_ok
  | none =>
      obtain ⟨-, rfl⟩ := Reader.pure_eq_ok_iff.mp read
      obtain ⟨tokens, fault, first⟩ := cursor
      obtain rfl : tokens = [] := List.head?_eq_none_iff.mp head
      cases fault with
      | none => exact ⟨rfl, rfl⟩
      | some fault => cases peeked

theorem ended_mirrors (writable : Writable values) :
    Mirrors values room 0 Reader.ended id Reader.ended := by
  refine .look looks_peek writable (.pure rfl) (fun _ _ _ _ _ fits => ?_) fun _ _ _ _ _ fits => ?_
  · exact Mirrors.throw fits
  · exact Mirrors.throw fits

theorem statementOf_mirrors (writable : Writable values) {found : Statement}
    (changes : found.ChangesRows) (read : statementOf found.type cursor = .ok (found, after)) :
    after.fault = cursor.fault ∧ (after.parameters ≤ values.length →
      statementOf found.type (cursor.filled values) = .ok (found.filled values, after.filled values)) := by
  cases found with
  | insert body =>
      obtain ⟨rows, form⟩ := changes
      obtain ⟨other, middle, inner, made⟩ := Reader.bind_eq_ok_iff.mp read
      obtain ⟨same, rfl⟩ := Reader.pure_eq_ok_iff.mp made
      cases same
      obtain ⟨steps, again⟩ :=
        insertFrom_mirrors writable (Nat.le_refl _) (insertFrom_rows inner form)
      exact ⟨steps.fault, fun given => Reader.bind_ok (again given)⟩
  | update body =>
      have mirrored : Mirrors values cursor.tokens.length 0 (statementOf .update)
          (Statement.filled values) (statementOf .update) :=
        (update_mirrors writable).map fun _ => rfl
      obtain ⟨steps, again⟩ := mirrored (Nat.le_refl _) read
      exact ⟨steps.fault, again⟩
  | delete body =>
      have mirrored : Mirrors values cursor.tokens.length 0 (statementOf .delete)
          (Statement.filled values) (statementOf .delete) :=
        (delete_mirrors writable).map fun _ => rfl
      obtain ⟨steps, again⟩ := mirrored (Nat.le_refl _) read
      exact ⟨steps.fault, again⟩
  | _ => exact changes.elim

/-- What may stand after a statement. -/
def closing (found : Statement) : Reader Statement := do
  let _ ← Reader.acceptSymbol .semicolon
  Reader.ended
  return found

theorem closing_mirrors (writable : Writable values) {found : Statement} :
    Mirrors values room 0 (closing found) (Statement.filled values)
      (closing (found.filled values)) := by
  have last {room : Nat} : Mirrors values room 0
      (Reader.ended >>= fun _ => pure found) (Statement.filled values)
      (Reader.ended >>= fun _ => pure (found.filled values)) :=
    (ended_mirrors writable).map fun _ => rfl
  exact .accept writable rfl (fun _ => last) last

theorem fault_of_closing {found given : Statement}
    (read : closing given cursor = .ok (found, after)) : after.fault = none ∧ given = found := by
  obtain ⟨accepted, middle, -, read⟩ := Reader.bind_eq_ok_iff.mp read
  obtain ⟨_, last, finished, made⟩ := Reader.bind_eq_ok_iff.mp read
  obtain ⟨clean, rfl⟩ := ended_eq_ok finished
  obtain ⟨rfl, rfl⟩ := Reader.pure_eq_ok_iff.mp made
  exact ⟨clean, rfl⟩

theorem ofToken_question {type : StatementType} :
    StatementType.ofToken (.symbol .question) ≠ .ok type := nofun

/-- A change of rows is read from filled tokens. -/
theorem wholeStatement_filled (writable : Writable values) {found : Statement}
    (changes : found.ChangesRows) (read : wholeStatement cursor = .ok (found, after))
    (given : after.parameters ≤ values.length) :
    cursor.fault = none ∧
      wholeStatement (cursor.filled values) = .ok (found.filled values, after.filled values) := by
  obtain ⟨first, middle, stated, closed⟩ := Reader.bind_eq_ok_iff.mp read
  obtain ⟨clean, rfl⟩ := fault_of_closing closed
  obtain ⟨⟨token, head, told⟩, body⟩ := statement_eq_ok stated
  obtain ⟨taken, ending⟩ := closing_mirrors writable (Nat.le_refl _) closed
  obtain ⟨kept, again⟩ :=
    statementOf_mirrors writable changes body
  have within := Nat.le_trans taken.parameters given
  have faultless : cursor.fault = none := kept.symm.trans (taken.fault.symm.trans clean)
  refine ⟨faultless, ?_⟩
  have shown : statement (cursor.filled values) = .ok (first.filled values, middle.filled values) := by
    obtain ⟨tokens, fault, number⟩ := cursor
    obtain ⟨rest, rfl⟩ := List.head?_eq_some_iff.mp head
    obtain rfl : fault = none := faultless
    have apart : token ≠ .symbol .question := by
      rintro rfl
      exact ofToken_question told
    have body := again within
    rw [filled_cons apart] at body ⊢
    rw [statement, Reader.bind_ok Reader.peek_eq]
    dsimp only [List.head?_cons]
    rw [told]
    exact body
  change (statement >>= closing) _ = _
  rw [Reader.bind_ok shown]
  exact ending given

theorem fills_literals (writable : Writable values) :
    List.Forall₂ Fills
      ((values.map fun value => (Expression.literal value).render).map String.toList)
      (fillersFrom values 0) := by
  rw [fillersFrom, List.drop_zero, List.map_map, List.forall₂_map_left_iff,
    List.forall₂_map_right_iff, List.forall₂_same]
  intro value member
  change Fills (writtenMarks value.marks).toList _
  rw [toList_writtenMarks]
  exact fills_marks (spaced_literal value) (legible_literal (writable value member))

/-- A text that holds a change of rows still does so, once there are literals in the places of its
placeholders, and the change holds these literals in their places. -/
theorem parseStatement_fill (writable : Writable values) {found : Statement}
    (changes : found.ChangesRows) (read : parseStatement text = .ok (found, values.length)) :
    parseStatement (fill text (values.map fun value => (Expression.literal value).render)) =
      .ok (found.filled values, 0) := by
  rw [parseStatement] at read
  split at read
  · rename_i first last ran
    obtain ⟨rfl, count⟩ : first = found ∧ last.parameters = values.length := by simpa using read
    obtain ⟨clean, filled⟩ := wholeStatement_filled writable changes ran (Nat.le_of_eq count)
    have tokens : Cursor.ofText (fill text (values.map fun value => (Expression.literal value).render)) =
        (Cursor.ofText text).filled values := by
      rw [Cursor.ofText, tokensOf_fill (fills_literals writable) clean, Cursor.filled, clean]
      rfl
    rw [parseStatement, tokens, filled]
    rfl
  · cases read

end Coffer.Language
