import Coffer.Proofs.FoundQuery

namespace Coffer.Language

/-! # Statements that are found

The first token of a text tells the type of the statement in it. What the expressions in a
query or in the columns of a table are like is told by the readers of expressions.
-/

variable {allowed : Token → Prop} {text : String} {token : Token} {type : StatementType}
variable {cursor after : Cursor} {found : Statement} {count : Nat}

/-! ## Types -/

theorem statementOf_type (read : statementOf type cursor = .ok (found, after)) :
    found.type = type := by
  cases type <;> simp only [statementOf, Reader.bind_eq_ok_iff, Reader.pure_eq_ok_iff] at read <;>
    grind [Statement.type]

theorem statement_eq_ok (read : statement cursor = .ok (found, after)) :
    (∃ token, cursor.tokens.head? = some token ∧ StatementType.ofToken token = .ok found.type) ∧
      statementOf found.type cursor = .ok (found, after) := by
  rw [statement] at read
  obtain ⟨seen, middle, peeked, read⟩ := Reader.bind_eq_ok_iff.mp read
  obtain ⟨head, rfl⟩ := Reader.peek_eq_ok peeked
  cases seen with
  | none => exact absurd read Reader.throw_ne_ok
  | some token =>
      obtain ⟨type, later, lifted, read⟩ := Reader.bind_eq_ok_iff.mp read
      obtain ⟨told, rfl⟩ := Reader.lift_eq_ok_iff.mp lifted
      obtain rfl := statementOf_type read
      exact ⟨⟨token, head, told⟩, read⟩

/-- A statement is read by its type, and what may follow it holds no placeholder. -/
theorem parseStatement_eq_ok (read : parseStatement text = .ok (found, count)) :
    (∃ token, (tokensOf text).tokens.head? = some token ∧
      StatementType.ofToken token = .ok found.type) ∧
    ∃ middle, statementOf found.type (.ofText text) = .ok (found, middle) ∧
      count = middle.parameters := by
  rw [parseStatement] at read
  split at read
  · rename_i first last ran
    cases read
    rw [wholeStatement] at ran
    obtain ⟨first, middle, read, ran⟩ := Reader.bind_eq_ok_iff.mp ran
    have closing : Finds (fun _ => True) (do
        let _ ← Reader.acceptSymbol .semicolon
        Reader.ended
        return first) (Plain (· = first)) :=
      (Finds.accept _).seq fun _ _ => Finds.ended.seq fun _ _ => .pure ⟨rfl, rfl⟩
    obtain ⟨-, _, -, count, rfl, rfl⟩ := closing (fun _ _ => trivial) ran
    obtain ⟨told, read⟩ := statement_eq_ok read
    exact ⟨told, middle, read, count⟩
  · cases read

/-! ## Queries -/

/-- A query that a text holds is made of what its tokens allow, with its placeholders numbered
in order. -/
theorem select_of_parse {select : Select} (read : parseStatement text = .ok (.select select, count))
    (permitted : ∀ token ∈ (tokensOf text).tokens, allowed token) :
    select.Found allowed ∧ (∀ expression ∈ select.expressions, expression.Found allowed) ∧
      Consecutive 0 (Statement.select select).placeholders ∧
      count = (Statement.select select).placeholders.length := by
  obtain ⟨-, middle, typed, rfl⟩ := parseStatement_eq_ok read
  obtain ⟨query, later, body, made⟩ := Reader.bind_eq_ok_iff.mp typed
  obtain ⟨same, rfl⟩ := Reader.pure_eq_ok_iff.mp made
  cases same
  obtain ⟨-, _, numbered, total, rfl, expressions, held⟩ := select_finds permitted body
  exact ⟨held, expressions, numbered, total.trans (Nat.zero_add _)⟩

/-! ## Columns -/

/-- Whether the default of a column, if it has one, was found where the tokens are allowed. -/
def ColumnDefinition.Found (allowed : Token → Prop) (column : ColumnDefinition) : Prop :=
  ∀ value ∈ column.default, value.Found allowed

/-- What was found with some property, whatever the placeholders are. -/
def Loose {α : Type} (good : α → Prop) (value : α) (_ : List Nat) : Prop :=
  good value

section Loose

variable {α β : Type} {reader : Reader α} {following : α → Reader β} {kind : α → List Nat → Prop}
variable {good : β → Prop}

theorem Finds.followed (front : Finds allowed reader kind)
    (back : ∀ value numbers, kind value numbers → Finds allowed (following value) (Loose good)) :
    Finds allowed (reader >>= following) (Loose good) :=
  front.bind back

theorem Finds.foldlM {step : β → α → Reader β} {items : List α} {start : β} (holds : good start)
    (preserved : ∀ state item, good state → Finds allowed (step state item) (Loose good)) :
    Finds allowed (items.foldlM step start) (Loose good) := by
  induction items generalizing start with
  | nil => exact .pure holds
  | cons item rest ih => exact (preserved start item holds).followed fun _ _ next => ih next

end Loose

section Columns

variable {column : ColumnDefinition} {columns : List ColumnDefinition}

theorem typeModifiers_finds : Finds allowed typeModifiers (Plain fun _ => True) := by
  refine (Finds.accept _).seq fun _ _ => .ite (fun _ => ?_) fun _ => .pure ⟨rfl, trivial⟩
  refine Finds.seq (@Finds.separatedPlain _ _ allowed (fun _ => True) ?_) fun _ _ => Finds.expect _
  refine Finds.next.seq fun token _ => ?_
  split
  · exact .pure ⟨rfl, trivial⟩
  · exact .throw

theorem columnType_finds : Finds allowed columnType (Plain fun _ => True) := by
  refine Finds.name?.seq fun name _ => ?_
  split
  · exact .pure ⟨rfl, trivial⟩
  · split
    · exact .throw
    · exact typeModifiers_finds.seq fun _ _ => .pure ⟨rfl, trivial⟩

theorem reference_finds : Finds allowed reference (Plain fun _ => True) := by
  refine Finds.name.seq fun _ _ => (Finds.accept _).seq fun _ _ => .ite (fun _ => ?_) fun _ => ?_
  · exact Finds.name.seq fun _ _ => (Finds.expect _).seq fun _ _ => .pure ⟨rfl, trivial⟩
  · exact .pure ⟨rfl, trivial⟩

theorem columnOption_finds (held : column.Found allowed) (keyword : Keyword) :
    Finds allowed (columnOption column keyword) (Loose (ColumnDefinition.Found allowed)) := by
  have kept {other : ColumnDefinition} (same : other.default = column.default) :
      Finds allowed (pure other) (Loose (ColumnDefinition.Found allowed)) :=
    .pure fun value member => held value (same ▸ member)
  unfold columnOption
  split
  · exact (Finds.expect _).seq fun _ _ => (Finds.takeIf _).seq fun _ _ => kept rfl
  · exact kept rfl
  · exact .ite (fun _ => .throw) fun _ => kept rfl
  · exact (Finds.expect _).seq fun _ _ => .ite (fun _ => .throw) fun _ => kept rfl
  · refine (expressionAbove_finds _).bind ?_
    rintro value _ ⟨rfl, found⟩
    refine .pure fun other same => ?_
    exact Option.mem_some_iff.mp same ▸ found
  · exact kept rfl
  · exact reference_finds.seq fun _ _ => kept rfl
  · exact .throw

theorem columnOptionsWithin_finds (limit : Nat) (held : column.Found allowed) :
    Finds allowed (columnOptionsWithin limit column) (Loose (ColumnDefinition.Found allowed)) := by
  induction limit generalizing column with
  | zero => exact .pure held
  | succ limit ih =>
      refine (Finds.takeIf _).seq fun taken _ => ?_
      split
      · exact (columnOption_finds held _).followed fun further _ found => ih found
      · exact .pure held

theorem columnDefinition_finds :
    Finds allowed columnDefinition (Loose (ColumnDefinition.Found allowed)) := by
  refine Finds.name.seq fun name _ => columnType_finds.seq fun type _ => ?_
  have plain : (ColumnDefinition.plain name type).Found allowed := by
    simp [ColumnDefinition.Found, ColumnDefinition.plain]
  exact fun cursor _ _ given ran =>
    columnOptionsWithin_finds cursor.tokens.length plain given ran

theorem adjustColumn_found {name : String} {change : ColumnDefinition → ColumnDefinition}
    {adjusted : List ColumnDefinition} (same : ∀ column, (change column).default = column.default)
    (held : ∀ column ∈ columns, column.Found allowed)
    (done : adjustColumn name change columns = .ok adjusted) :
    ∀ column ∈ adjusted, column.Found allowed := by
  induction columns generalizing adjusted with
  | nil => cases done
  | cons first others ih =>
      obtain ⟨leading, rest⟩ := List.forall_mem_cons.mp held
      rw [adjustColumn] at done
      split at done
      · cases done
        refine List.forall_mem_cons.mpr ⟨fun value member => leading value ?_, rest⟩
        rwa [← same first]
      · obtain ⟨further, adjusted, rfl⟩ := map_eq_ok_iff.mp done
        exact List.forall_mem_cons.mpr ⟨leading, ih rest adjusted⟩

theorem tableElement_finds (held : ∀ column ∈ columns, column.Found allowed) :
    Finds allowed (tableElement columns)
      (Loose fun columns => ∀ column ∈ columns, column.Found allowed) := by
  refine Finds.peek.seq fun seen _ => ?_
  split
  · refine Finds.next.seq fun _ _ => (Finds.expect _).seq fun _ _ => Finds.names.seq fun names _ => ?_
    split
    · exact .lift fun adjusted done => adjustColumn_found (by simp) held done
    · exact .throw
  · refine Finds.next.seq fun _ _ => Finds.names.seq fun keys _ => .foldlM held ?_
    exact fun columns key held => .lift fun adjusted done => adjustColumn_found (by simp) held done
  · refine columnDefinition_finds.followed fun column _ found => .pure ?_
    exact List.forall_mem_append.mpr ⟨held, List.forall_mem_singleton.mpr found⟩

theorem tableElementsWithin_finds (limit : Nat) (held : ∀ column ∈ columns, column.Found allowed) :
    Finds allowed (tableElementsWithin limit columns)
      (Loose fun columns => ∀ column ∈ columns, column.Found allowed) := by
  induction limit generalizing columns with
  | zero => exact tableElement_finds held
  | succ limit ih =>
      refine (tableElement_finds held).followed fun further _ found => ?_
      exact (Finds.accept _).seq fun _ _ => .ite (fun _ => ih found) fun _ => .pure found

theorem tableColumns_finds :
    Finds allowed tableColumns
      (Loose fun columns => ∀ column ∈ columns, column.Found allowed) := by
  refine (Finds.expect _).seq fun _ _ => (Finds.accept _).seq fun _ _ => ?_
  refine .ite (fun _ => .pure (List.forall_mem_nil _)) fun _ => ?_
  have elements : Finds allowed (fun cursor => tableElementsWithin cursor.tokens.length [] cursor)
      (Loose fun columns => ∀ column ∈ columns, column.Found allowed) :=
    fun cursor _ _ given ran => tableElementsWithin_finds cursor.tokens.length (by simp) given ran
  exact elements.followed fun columns _ found => (Finds.expect _).seq fun _ _ => .pure found

/-- What a CREATE statement defines has columns only where it is a table. -/
theorem definition_finds (unique : Bool) (kind : ObjectKind) :
    Finds allowed (definition unique kind)
      (Loose fun definition => ∀ columns, definition = .table columns →
        ∀ column ∈ columns, column.Found allowed) := by
  cases kind with
  | table =>
      refine tableColumns_finds.followed fun columns _ found => .pure ?_
      rintro _ ⟨⟩
      exact found
  | index =>
      exact (Finds.expect _).seq fun _ _ => Finds.name.seq fun _ _ => Finds.names.seq fun _ _ =>
        .pure fun _ same => nomatch same
  | view =>
      exact (Finds.expect _).seq fun _ _ => select_finds.followed fun _ _ _ =>
        .pure fun _ same => nomatch same
  | trigger =>
      intro cursor found after given ran
      obtain ⟨body, middle, rest, made⟩ := Reader.bind_eq_ok_iff.mp ran
      obtain ⟨rfl, rfl⟩ := Reader.pure_eq_ok_iff.mp made
      rw [remainingText] at rest
      split at rest
      · cases rest
      · cases rest
        exact ⟨List.forall_mem_nil _, [], consecutive_nil, rfl, fun _ same => nomatch same⟩

theorem ifNotExists_finds : Finds allowed ifNotExists (Plain fun _ => True) := by
  refine (Finds.accept _).seq fun _ _ => .ite (fun _ => ?_) fun _ => .pure ⟨rfl, trivial⟩
  exact (Finds.expect _).seq fun _ _ => (Finds.expect _).seq fun _ _ => .pure ⟨rfl, trivial⟩

theorem create_finds :
    Finds allowed create
      (Loose fun create => ∀ column ∈ (Statement.create create).columns, column.Found allowed) := by
  refine (Finds.takeIf _).seq fun temporary _ => (Finds.accept _).seq fun unique _ => ?_
  refine Finds.next.seq fun token _ => ?_
  have kinds : Finds allowed (liftM (objectKind token) : Reader ObjectKind) (Plain fun _ => True) :=
    .checked fun _ _ => trivial
  refine kinds.seq fun kind _ => ?_
  have content : Finds allowed (do
      let ifNotExists ← ifNotExists
      let name ← Reader.name
      let definition ← definition unique kind
      return { name, ifNotExists, temporary := temporary.isSome, definition })
      (Loose fun create => ∀ column ∈ (Statement.create create).columns, column.Found allowed) := by
    refine ifNotExists_finds.seq fun _ _ => Finds.name.seq fun _ _ => ?_
    refine (definition_finds unique kind).followed fun definition _ found => .pure ?_
    cases definition with
    | table columns => exact found columns rfl
    | _ => exact List.forall_mem_nil _
  exact .ite (fun _ => .throw) fun _ => content

theorem alterAction_finds {table : String} :
    Finds allowed alterAction
      (Loose fun action =>
        ∀ column ∈ (Statement.alter ⟨table, action⟩).columns, column.Found allowed) := by
  have empty : ∀ column ∈ ([] : List ColumnDefinition), column.Found allowed := List.forall_mem_nil _
  refine Finds.next.seq fun token _ => ?_
  split
  · refine (Finds.accept _).seq fun _ _ => columnDefinition_finds.followed fun column _ found => ?_
    exact .pure (List.forall_mem_singleton.mpr found)
  · refine (Finds.accept _).seq fun _ _ => .ite (fun _ => ?_) fun _ => ?_
    · exact Finds.name.seq fun _ _ => .pure empty
    · refine (Finds.accept _).seq fun _ _ => Finds.name.seq fun _ _ => (Finds.expect _).seq fun _ _ => ?_
      exact Finds.name.seq fun _ _ => .pure empty
  · exact .throw

theorem alter_finds :
    Finds allowed alter
      (Loose fun alter => ∀ column ∈ (Statement.alter alter).columns, column.Found allowed) := by
  refine (Finds.expect _).seq fun _ _ => Finds.name.seq fun table _ => ?_
  exact alterAction_finds.followed fun _ _ found => .pure found

/-- The columns that a text defines have defaults made of what its tokens allow. -/
theorem columns_of_parse (read : parseStatement text = .ok (found, count))
    (permitted : ∀ token ∈ (tokensOf text).tokens, allowed token) :
    ∀ column ∈ found.columns, column.Found allowed := by
  obtain ⟨-, middle, typed, rfl⟩ := parseStatement_eq_ok read
  cases found with
  | create create =>
      have finds : Finds allowed (statementOf .create)
          (Loose fun found => ∀ column ∈ found.columns, column.Found allowed) :=
        Finds.next.seq fun _ _ => create_finds.followed fun _ _ found => .pure found
      obtain ⟨-, _, -, -, held⟩ := finds permitted typed
      exact held
  | alter alter =>
      have finds : Finds allowed (statementOf .alter)
          (Loose fun found => ∀ column ∈ found.columns, column.Found allowed) :=
        Finds.next.seq fun _ _ => alter_finds.followed fun _ _ found => .pure found
      obtain ⟨-, _, -, -, held⟩ := finds permitted typed
      exact held
  | _ => exact List.forall_mem_nil _

end Columns

/-! ## Transactions -/

theorem beginMode_finds : Finds allowed beginMode (Plain fun _ => True) := by
  refine Finds.name?.seq fun mode _ => ?_
  split
  · exact .pure ⟨rfl, trivial⟩
  · exact .ite (fun _ => .pure ⟨rfl, trivial⟩) fun _ => .throw

/-- Statements that control transactions have no placeholders. -/
theorem parameters_of_parse (read : parseStatement text = .ok (found, count))
    (control : found.type.category = .transaction) : count = 0 := by
  obtain ⟨-, middle, typed, rfl⟩ := parseStatement_eq_ok read
  have finds : Finds (fun _ => True) (statementOf found.type) (Plain fun _ => True) := by
    cases found with
    | begin =>
        exact Finds.next.seq fun _ _ => beginMode_finds.seq fun _ _ => (Finds.accept _).seq fun _ _ =>
          .pure ⟨rfl, trivial⟩
    | commit => exact Finds.next.seq fun _ _ => (Finds.accept _).seq fun _ _ => .pure ⟨rfl, trivial⟩
    | rollback => exact Finds.next.seq fun _ _ => (Finds.accept _).seq fun _ _ => .pure ⟨rfl, trivial⟩
    | _ => cases control
  obtain ⟨-, _, -, count, rfl, -⟩ := finds (fun _ _ => trivial) typed
  exact count

end Coffer.Language
