import Coffer.Proofs.ChangeReading

namespace Coffer.Language

/-! # Definitions read back

The options of a column are rendered in one order, each at most once, so that reading them one
after another builds up the column again.
-/

variable {bound : Nat} {word : Keyword} {token : Token} {tokens others rest : List Token}
variable {column further result : ColumnDefinition} {numbers more : List Nat}
variable {follows : List Token → Prop}

theorem columnType_reads (type : ColumnType) :
    Reads bound columnType [.identifier type.name] type [] (Without (.symbol .openParen)) := by
  have named : ColumnType.ofName? type.name = some type := by
    cases type <;> decide +kernel
  have plain : Reads bound typeModifiers [] () [] (Without (.symbol .openParen)) :=
    (passes (.symbol .openParen)).bind (.pure ()) fun _ ends => ends
  intro first rest ends numbered room
  rw [columnType, List.singleton_append, Reader.bind_ok (Reader.name?_cons type.name)]
  dsimp only
  rw [named]
  have shorter : ([] ++ rest).length ≤ bound := Nat.le_of_succ_le room
  exact plain.map ends consecutive_nil shorter

/-- The tokens of the table, and possibly the column, a column refers to. -/
def referenceTokens (target : Reference) : List Token :=
  .identifier target.table :: match target.column with
    | none => []
    | some column => [.symbol .openParen, .identifier column, .symbol .closeParen]

theorem reference_reads (target : Reference) :
    Reads bound reference (referenceTokens target) target [] (Without (.symbol .openParen)) := by
  obtain ⟨table, column⟩ := target
  cases column with
  | none =>
      refine (takesName table).seq ?_
      exact (passes (.symbol .openParen)).bind (.pure (Reference.mk table none)) fun _ ends => ends
  | some column =>
      refine (takesName table).seq ((accepts (.symbol .openParen)).seq ?_)
      exact (takesName column).seq ((expects (.symbol .closeParen)).seq
        (.pure (Reference.mk table (some column))))

/-! ## Options of columns -/

/-- What may stand after a column. -/
def EndsColumn (rest : List Token) : Prop :=
  ∀ token ∈ rest.head?, token = .symbol .comma ∨ token = .symbol .closeParen

/-- Whether a token starts an option of a column, or ends the column. -/
def startsOption : Token → Bool
  | .keyword word =>
    word == .primary || word == .autoincrement || word == .not || word == .null ||
      word == .unique || word == .default || word == .references
  | .symbol mark => mark == .comma || mark == .closeParen
  | _ => false

/-- Whether options are read to the given column, by a reader that may take as many options as
there are tokens. -/
structure ReadsOptions (bound : Nat) (column : ColumnDefinition) (tokens : List Token)
    (result : ColumnDefinition) (numbers : List Nat) : Prop where
  reads : ∀ ⦃limit⦄, tokens.length ≤ limit →
    Reads bound (columnOptionsWithin limit column) tokens result numbers EndsColumn
  opens : ∀ token ∈ tokens.head?, startsOption token = true

namespace ReadsOptions

theorem whole (options : ReadsOptions bound column tokens result numbers) :
    Reads bound (fun cursor => columnOptionsWithin cursor.tokens.length column cursor) tokens result
      numbers EndsColumn :=
  fun _ rest ends numbered room =>
    options.reads (List.sublist_append_left tokens rest).length_le ends numbered room

theorem nil : ReadsOptions bound column [] column [] := by
  refine ⟨fun limit _ => ?_, nofun⟩
  cases limit with
  | zero => exact .pure column
  | succ limit =>
      have stopped : Reads bound (columnOptionsWithin (limit + 1) column) [] column []
          (Stops Reader.isKeyword) := (takesNone Reader.isKeyword).last rfl
      refine stopped.weaken fun rest ends token head => ?_
      rcases ends token head with rfl | rfl <;> rfl

theorem starts (reads : ReadsOptions bound column tokens result numbers) (ends : EndsColumn rest) :
    ∀ token ∈ (tokens ++ rest).head?, startsOption token = true := by
  cases tokens with
  | nil =>
      intro token head
      rcases ends token head with rfl | rfl <;> rfl
  | cons leading others => exact reads.opens

theorem without (reads : ReadsOptions bound column tokens result numbers) (ends : EndsColumn rest)
    (none : startsOption token = false) : Without token (tokens ++ rest) := by
  intro other head
  refine beq_eq_false_iff_ne.mpr ?_
  rintro rfl
  exact Bool.false_ne_true (none.symm.trans (reads.starts ends other head))

theorem cons (front : Reads bound (columnOption column word) tokens further numbers follows)
    (back : ReadsOptions bound further others result more)
    (meets : ∀ rest, EndsColumn rest → follows (others ++ rest))
    (start : startsOption (.keyword word) = true) :
    ReadsOptions bound column ([.keyword word] ++ (tokens ++ others)) result (numbers ++ more) := by
  refine ⟨fun limit room => ?_, ?_⟩
  · have enough : others.length + 1 ≤ limit := by
      simp only [List.length_append, List.length_singleton] at room
      omega
    obtain ⟨limit, rfl⟩ : ∃ fewer, limit = fewer + 1 := ⟨limit - 1, by omega⟩
    have taken : Reads bound (Reader.takeIf Reader.isKeyword) [.keyword word] _ [] Anything :=
      takesIf rfl
    exact taken.seq (front.bind (back.reads (Nat.le_of_succ_le_succ enough)) meets)
  · rintro token ⟨⟩
    exact start

/-- An option that needs no further tokens, where the column may have it or not. -/
theorem flag {flag : Bool} (unset : flag = false → column = further)
    (set : flag = true → columnOption column word = pure further)
    (back : ReadsOptions bound further others result more)
    (start : startsOption (.keyword word) = true) :
    ReadsOptions bound column (tokensIn (if flag then Mark.clause [word] else []) ++ others) result
      more := by
  cases flag with
  | false =>
      rw [unset rfl]
      exact back
  | true =>
      have front : Reads bound (columnOption column word) [] further [] Anything := by
        rw [set rfl]
        exact .pure further
      exact cons front back (fun _ _ => trivial) start

theorem primaryKey {flag : Bool} (unset : column.primaryKey = false)
    (back : ReadsOptions bound { column with primaryKey := flag } others result more) :
    ReadsOptions bound column
      (tokensIn (if flag then Mark.clause [.primary, .key] else []) ++ others) result more := by
  cases flag with
  | false =>
      rw [← unset] at back
      exact back
  | true =>
      have front : Reads bound (columnOption column .primary) [.keyword .key]
          { column with primaryKey := true } [] (Stops isDirection) :=
        (expects (.keyword .key)).seq ((takesNone isDirection).map)
      refine cons front back (fun rest ends token head => ?_) rfl
      have up : Without (.keyword .asc) (others ++ rest) := back.without ends rfl
      have down : Without (.keyword .desc) (others ++ rest) := back.without ends rfl
      exact Bool.or_eq_false_iff.mpr ⟨up token head, down token head⟩

end ReadsOptions

/-- The tokens that say whether a column may hold NULL. -/
def nullTokens : Option Bool → List Token
  | none => []
  | some false => [.keyword .not, .keyword .null]
  | some true => [.keyword .null]

def referencesTokens : Option Reference → List Token
  | none => []
  | some target => [.keyword .references] ++ referenceTokens target

namespace ReadsOptions

theorem nullable {found : Option Bool} (unset : column.nullable = none)
    (back : ReadsOptions bound { column with nullable := found } others result more) :
    ReadsOptions bound column (nullTokens found ++ others) result more := by
  cases found with
  | none =>
      rw [← unset] at back
      exact back
  | some allowed =>
      cases allowed with
      | false =>
          have front : Reads bound (columnOption column .not) [.keyword .null]
              { column with nullable := some false } [] Anything := by
            refine (expects (.keyword .null)).last ?_
            rw [unset]
            rfl
          exact cons front back (fun _ _ => trivial) rfl
      | true =>
          have front : Reads bound (columnOption column .null) []
              { column with nullable := some true } [] Anything := by
            rw [columnOption, unset]
            exact .pure _
          exact cons front back (fun _ _ => trivial) rfl

theorem references {target : Option Reference} (unset : column.references = none) :
    ReadsOptions bound column (referencesTokens target) { column with references := target } [] := by
  cases target with
  | none =>
      cases column
      cases unset
      exact nil
  | some target =>
      have front : Reads bound (columnOption column .references) (referenceTokens target)
          { column with references := some target } [] (Without (.symbol .openParen)) :=
        (reference_reads target).map
      have whole := cons front nil (fun rest ends token head => ?_) rfl
      · rw [List.append_nil] at whole
        exact whole
      · rcases ends token head with rfl | rfl <;> rfl

theorem default {found : Option Expression} {target : Option Reference}
    (unset : column.default = none)
    (faithful : ∀ value ∈ found.toList, value.Faithful ∧ value.precedence = 10)
    (back : ReadsOptions bound { column with default := found } (referencesTokens target) result []) :
    ReadsOptions bound column
      (tokensIn (optionalClause [.default] found) ++ referencesTokens target) result
      (found.toList.flatMap Expression.placeholders) := by
  cases found with
  | none =>
      rw [← unset] at back
      exact back
  | some value =>
      obtain ⟨whole, tight⟩ := faithful value List.mem_cons_self
      have loose : 7 ≤ value.precedence := by
        rw [tight]
        decide
      have read : Reads bound (expressionAbove 7) _ value _ _ :=
        expressionAbove_reads whole (by decide) loose
      have front : Reads bound (columnOption column .default) (tokensIn value.marks)
          { column with default := some value } value.placeholders (Follows 7) := read.map
      have form : tokensIn (optionalClause [.default] (some value)) ++ referencesTokens target =
          [.keyword .default] ++ (tokensIn value.marks ++ referencesTokens target) := rfl
      have numbers : (some value).toList.flatMap Expression.placeholders =
          value.placeholders ++ [] := rfl
      rw [form, numbers]
      refine cons front back (fun rest ends => ?_) rfl
      cases target with
      | none =>
          cases rest with
          | nil => exact opensFrom_nil.item.1.mono (by decide)
          | cons token others =>
              rcases ends token rfl with rfl | rfl
              · exact follows_comma
              · exact follows_closeParen
      | some target => exact follows_cons rfl rfl rfl

end ReadsOptions

theorem tokensIn_column : tokensIn column.marks =
    [.identifier column.name] ++ ([.identifier column.type.name] ++
      (tokensIn (if column.primaryKey then Mark.clause [.primary, .key] else []) ++
        (tokensIn (if column.autoincrement then Mark.clause [.autoincrement] else []) ++
          (nullTokens column.nullable ++
            (tokensIn (if column.unique then Mark.clause [.unique] else []) ++
              (tokensIn (optionalClause [.default] column.default) ++
                referencesTokens column.references)))))) := by
  obtain ⟨name, type, primaryKey, autoincrement, nullable, default, unique, references⟩ := column
  rw [ColumnDefinition.marks]
  simp only [tokensIn_append, List.append_assoc]
  rcases nullable with _ | _ | _ <;> rcases references with _ | ⟨table, _ | other⟩ <;> rfl

theorem columnDefinition_reads (faithful : column.Faithful) :
    Reads bound columnDefinition (tokensIn column.marks) column
      (column.default.toList.flatMap Expression.placeholders) EndsColumn := by
  rw [tokensIn_column]
  obtain ⟨name, type, primaryKey, autoincrement, nullable, default, unique, target⟩ := column
  have referring : ReadsOptions bound
      ⟨name, type, primaryKey, autoincrement, nullable, default, unique, none⟩
      (referencesTokens target) _ [] :=
    .references rfl
  have defaulted : ReadsOptions bound
      ⟨name, type, primaryKey, autoincrement, nullable, none, unique, none⟩ _ _ _ :=
    .default rfl faithful referring
  have keyed : ReadsOptions bound
      ⟨name, type, primaryKey, autoincrement, nullable, none, false, none⟩
      (tokensIn (if unique then Mark.clause [.unique] else []) ++ _) _ _ :=
    .flag (fun off => off ▸ rfl) (fun on => on ▸ rfl) defaulted rfl
  have nulled : ReadsOptions bound ⟨name, type, primaryKey, autoincrement, none, none, false, none⟩ _ _ _ :=
    .nullable rfl keyed
  have counted : ReadsOptions bound ⟨name, type, primaryKey, false, none, none, false, none⟩
      (tokensIn (if autoincrement then Mark.clause [.autoincrement] else []) ++ _) _ _ :=
    .flag (fun off => off ▸ rfl) (fun on => on ▸ rfl) nulled rfl
  have options : ReadsOptions bound (.plain name type) _ _ _ := .primaryKey rfl counted
  refine (takesName name).seq ((columnType_reads type).bind options.whole fun rest ends => ?_)
  exact options.without ends rfl

/-! ## Tables -/

theorem tableElement_reads (faithful : column.Faithful) (columns : List ColumnDefinition) :
    Reads bound (tableElement columns) (tokensIn column.marks) (columns ++ [column])
      (column.default.toList.flatMap Expression.placeholders) EndsColumn := by
  have leading : ∀ rest, EndsColumn rest →
      (tokensIn column.marks ++ rest).head? = some (.identifier column.name) := by
    intro rest _
    rw [tokensIn_column]
    rfl
  refine .peeked ?_ leading
  exact (columnDefinition_reads faithful).map

theorem tableElementsWithin_reads {columns others : List ColumnDefinition} {limit : Nat}
    (faithful : ∀ other ∈ column :: others, other.Faithful) (enough : others.length ≤ limit) :
    Reads bound (tableElementsWithin limit columns)
      (commaTokens ((column :: others).map fun other => tokensIn other.marks))
      (columns ++ column :: others)
      ((column :: others).flatMap fun other => other.default.toList.flatMap Expression.placeholders)
      (fun rest => rest.head? = some (.symbol .closeParen)) := by
  induction others generalizing column columns limit with
  | nil =>
      have read : Reads bound (tableElement columns) _ _ _ _ :=
        tableElement_reads (faithful column List.mem_cons_self) columns
      have form : commaTokens ([column].map fun other => tokensIn other.marks) =
          tokensIn column.marks ++ [] := rfl
      have numbers : [column].flatMap
          (fun other => other.default.toList.flatMap Expression.placeholders) =
          column.default.toList.flatMap Expression.placeholders ++ [] := rfl
      have ends : ∀ rest : List Token, rest.head? = some (.symbol .closeParen) →
          EndsColumn rest := by
        intro rest closed token head
        exact .inr (Option.mem_unique head closed)
      rw [form, numbers]
      cases limit with
      | zero =>
          rw [List.append_nil, List.append_nil]
          exact read.weaken ends
      | succ limit =>
          refine read.bind ((passes (.symbol .comma)).bind (.pure _) ?_) ends
          intro rest closed token head
          cases Option.mem_unique head closed
          rfl
  | cons second others ih =>
      obtain ⟨limit, rfl⟩ : ∃ fewer, limit = fewer + 1 := ⟨limit - 1, by simp at enough; omega⟩
      obtain ⟨whole, faithful⟩ := List.forall_mem_cons.mp faithful
      have read : Reads bound (tableElement columns) _ _ _ _ := tableElement_reads whole columns
      have further : Reads bound (tableElementsWithin limit (columns ++ [column])) _ _ _ _ :=
        ih faithful (Nat.le_of_succ_le_succ enough)
      have form : columns ++ column :: second :: others = columns ++ [column] ++ second :: others :=
        List.append_cons columns column (second :: others)
      rw [List.map_cons, List.map_cons, commaTokens_cons, form]
      refine read.bind ((accepts (.symbol .comma)).seq further) fun _ _ token head => ?_
      cases head
      exact .inl rfl

theorem tableColumns_reads {columns : List ColumnDefinition}
    (faithful : ∀ column ∈ columns, column.Faithful) :
    Reads bound tableColumns
      (tokensIn (Mark.parenthesized (Mark.separated (columns.map ColumnDefinition.marks)))) columns
      (columns.flatMap fun column => column.default.toList.flatMap Expression.placeholders)
      Anything := by
  rw [tokensIn_parenthesized, tokensIn_separated, List.map_map, tableColumns]
  cases columns with
  | nil => exact (expects (.symbol .openParen)).seq ((accepts (.symbol .closeParen)).seq (.pure []))
  | cons column others =>
      have elements : Reads bound (fun cursor => tableElementsWithin cursor.tokens.length [] cursor)
          (commaTokens ((column :: others).map fun other => tokensIn other.marks))
          (column :: others)
          ((column :: others).flatMap fun other => other.default.toList.flatMap Expression.placeholders)
          (fun rest => rest.head? = some (.symbol .closeParen)) := by
        intro first rest ends numbered room
        have enough : others.length ≤
            (commaTokens ((column :: others).map fun other => tokensIn other.marks) ++ rest).length := by
          rw [List.length_append]
          exact Nat.le_add_right_of_le length_le_commaTokens
        exact @tableElementsWithin_reads bound column [] others _ faithful enough _ _ ends numbered room
      rw [← List.append_nil (List.flatMap _ _)]
      refine (expects (.symbol .openParen)).seq ((passes (.symbol .closeParen)).bind ?_ fun _ _ => ?_)
      · rw [if_neg nofun]
        refine elements.bind ?_ fun _ _ => rfl
        exact (expects (.symbol .closeParen)).seq (.pure (column :: others))
      · exact without_cons nofun

/-! ## Statements of definition -/

theorem definition_reads {content : Definition} (readable : content.Readable)
    (faithful : ∀ expression ∈ content.expressions, expression.Faithful)
    (defaults : ∀ columns, content = .table columns → ∀ column ∈ columns, column.Faithful) :
    Reads bound (definition content.isUnique content.kind) (tokensIn content.marks) content
      (content.expressions.flatMap Expression.placeholders) (· = []) := by
  cases content with
  | table columns =>
      have numbers : (Definition.table columns).expressions.flatMap Expression.placeholders =
          columns.flatMap fun column => column.default.toList.flatMap Expression.placeholders :=
        List.flatMap_assoc
      rw [numbers]
      exact (tableColumns_reads (defaults columns rfl)).map.weaken fun _ _ => trivial
  | index owner columns unique =>
      refine (expects (.keyword .on)).seq ((takesName owner).seq ?_)
      exact (names_reads columns).map.weaken fun _ _ => trivial
  | view query =>
      have read : Reads bound select _ query _ _ := select_reads readable faithful
      exact (expects (.keyword .as)).seq read.map
  | trigger body => exact readable.elim

theorem objectKind_keyword (kind : ObjectKind) : objectKind (.keyword kind.keyword) = .ok kind := by
  cases kind <;> rfl

theorem lifts {α : Type} (value : α) :
    Reads bound (liftM (Except.ok value : Except Error α)) [] value [] Anything :=
  fun _ _ _ _ _ => rfl

theorem ifNotExists_reads (guarded : Bool) :
    Reads bound ifNotExists
      (tokensIn (if guarded then Mark.clause [.«if», .not, .exists] else [])) guarded []
      (Without (.keyword .«if»)) := by
  cases guarded with
  | false => exact (passes (.keyword .«if»)).bind (.pure false) fun _ ends => ends
  | true =>
      have words : Reads bound ifNotExists _ true [] Anything :=
        (accepts (.keyword .«if»)).seq ((expects (.keyword .not)).seq
          ((expects (.keyword .exists)).seq (.pure true)))
      exact words.weaken fun _ _ => trivial

theorem ifExists_reads (guarded : Bool) :
    Reads bound ifExists (tokensIn (if guarded then Mark.clause [.«if», .exists] else [])) guarded []
      (Without (.keyword .«if»)) := by
  cases guarded with
  | false => exact (passes (.keyword .«if»)).bind (.pure false) fun _ ends => ends
  | true =>
      have words : Reads bound ifExists _ true [] Anything :=
        (accepts (.keyword .«if»)).seq ((expects (.keyword .exists)).seq (.pure true))
      exact words.weaken fun _ _ => trivial

theorem drop_reads (removal : Drop) :
    Reads bound (Reader.next >>= fun _ => drop) (tokensIn removal.marks) removal [] Anything := by
  obtain ⟨kind, name, guarded⟩ := removal
  have form : tokensIn (Drop.mk kind name guarded).marks =
      [.keyword .drop] ++ ([.keyword kind.keyword] ++ ([] ++
        (tokensIn (if guarded then Mark.clause [.«if», .exists] else []) ++
          ([.identifier name] ++ [])))) := by
    rw [Drop.marks, Mark.word, tokensIn_token]
    simp only [tokensIn_append, tokensIn_clause, List.append_assoc]
    rfl
  rw [form, drop]
  refine (takes (.keyword .drop)).seq ((takes (.keyword kind.keyword)).seq ?_)
  rw [objectKind_keyword]
  refine (lifts kind).seq ((ifExists_reads guarded).bind ?_ fun _ _ => without_cons (by simp))
  exact (takesName name).seq (.pure (Drop.mk kind name guarded))

/-- Whether a token says that a table is temporary. -/
def isTemporary (token : Token) : Bool :=
  token == .keyword .temp || token == .keyword .temporary

def temporaryTokens : Bool → List Token
  | false => []
  | true => [.keyword .temporary]

def uniqueTokens : Bool → List Token
  | false => []
  | true => [.keyword .unique]

theorem tokensIn_create {creation : Create} :
    tokensIn creation.marks = [.keyword .create] ++ (temporaryTokens creation.temporary ++
      (uniqueTokens creation.definition.isUnique ++
        ([.keyword creation.definition.kind.keyword] ++
          (tokensIn (if creation.ifNotExists then Mark.clause [.«if», .not, .exists] else []) ++
            ([.identifier creation.name] ++ tokensIn creation.definition.marks))))) := by
  have brief : ∀ short, tokensIn (if short then Mark.clause [.temporary] else []) =
      temporaryTokens short := by
    intro short
    cases short <;> rfl
  have single : ∀ unique, tokensIn (if unique then Mark.clause [.unique] else []) =
      uniqueTokens unique := by
    intro unique
    cases unique <;> rfl
  rw [Create.marks, Mark.word, tokensIn_token]
  simp only [tokensIn_append, tokensIn_clause, brief, single, List.append_assoc]
  rfl

theorem unique_kind {content : Definition} (unique : content.isUnique = true) :
    content.kind = .index := by
  cases content with
  | index owner columns unique => rfl
  | _ => cases unique

theorem create_reads {creation : Create} (readable : creation.definition.Readable)
    (faithful : ∀ expression ∈ creation.definition.expressions, expression.Faithful)
    (defaults : ∀ columns, creation.definition = .table columns →
      ∀ column ∈ columns, column.Faithful) :
    Reads bound (Reader.next >>= fun _ => create) (tokensIn creation.marks) creation
      (creation.definition.expressions.flatMap Expression.placeholders) (· = []) := by
  obtain ⟨name, guarded, short, content⟩ := creation
  have defined : Reads bound (definition content.isUnique content.kind) _ content _ _ :=
    definition_reads readable faithful defaults
  have brief : Reads bound (Reader.takeIf isTemporary) (temporaryTokens short)
      (if short then some (.keyword .temporary) else none) [] (Stops isTemporary) := by
    cases short with
    | false => exact takesNone isTemporary
    | true => exact (takesIf rfl).weaken fun _ _ => trivial
  have marked : ∀ unique, Reads bound (Reader.acceptWord .unique) (uniqueTokens unique) unique []
      (Without (.keyword .unique)) := by
    intro unique
    cases unique with
    | false => exact passes (.keyword .unique)
    | true => exact (accepts (.keyword .unique)).weaken fun _ _ => trivial
  have plain : ∀ kind : ObjectKind, ∀ rest, Without (.keyword .unique) (.keyword kind.keyword :: rest) := by
    intro kind rest
    cases kind <;> exact without_cons (by decide)
  rw [tokensIn_create, create]
  refine (takes (.keyword .create)).seq (brief.bind ((marked content.isUnique).bind
    ((takes (.keyword content.kind.keyword)).seq ?_) fun _ _ => plain content.kind _) fun rest _ => ?_)
  · have allowed : ¬(content.isUnique = true ∧ content.kind ≠ .index) :=
      fun ⟨unique, other⟩ => other (unique_kind unique)
    rw [objectKind_keyword]
    have kinded : Reads bound (liftM (Except.ok content.kind : Except Error ObjectKind)) [] _ [] _ :=
      lifts content.kind
    refine kinded.seq ?_
    rw [if_neg allowed]
    refine (ifNotExists_reads guarded).bind ?_ fun _ _ => without_cons nofun
    refine (takesName name).seq (defined.last ?_)
    cases short <;> rfl
  · intro token head
    cases unique : content.isUnique with
    | false =>
        rw [unique] at head
        cases head
        cases content.kind <;> rfl
    | true =>
        rw [unique] at head
        cases head
        rfl

theorem alterAction_reads {action : AlterAction}
    (defaults : ∀ column, action = .addColumn column → column.Faithful) :
    Reads bound alterAction (tokensIn action.marks) action
      (action.expressions.flatMap Expression.placeholders) (· = []) := by
  cases action with
  | addColumn column =>
      have read : Reads bound columnDefinition _ column _ _ :=
        columnDefinition_reads (defaults column rfl)
      have form : tokensIn (AlterAction.addColumn column).marks =
          [.keyword .add] ++ ([.keyword .column] ++ tokensIn column.marks) := by
        rw [AlterAction.marks, tokensIn_append]
        rfl
      rw [form]
      refine (takes (.keyword .add)).seq ((accepts (.keyword .column)).seq (read.map.weaken ?_))
      rintro rest rfl
      exact nofun
  | renameTable name =>
      refine (takes (.keyword .rename)).seq ((accepts (.keyword .to)).seq ?_)
      exact (takesName name).map.weaken fun _ _ => trivial
  | renameColumn source target =>
      refine (takes (.keyword .rename)).seq ((passes (.keyword .to)).bind ?_ fun _ _ => without_cons nofun)
      refine (accepts (.keyword .column)).seq ((takesName source).seq ((expects (.keyword .to)).seq ?_))
      exact (takesName target).map.weaken fun _ _ => trivial

theorem alter_reads {change : Alter}
    (defaults : ∀ column, change.action = .addColumn column → column.Faithful) :
    Reads bound (Reader.next >>= fun _ => alter) (tokensIn change.marks) change
      (change.action.expressions.flatMap Expression.placeholders) (· = []) := by
  obtain ⟨table, action⟩ := change
  have read : Reads bound alterAction _ action _ _ := alterAction_reads defaults
  have form : tokensIn (Alter.mk table action).marks =
      [.keyword .alter] ++ ([.keyword .table] ++ ([.identifier table] ++ tokensIn action.marks)) := by
    rw [Alter.marks, Mark.word, tokensIn_token]
    simp only [tokensIn_append, tokensIn_clause]
    rfl
  rw [form]
  exact (takes (.keyword .alter)).seq ((expects (.keyword .table)).seq ((takesName table).seq read.map))

end Coffer.Language
