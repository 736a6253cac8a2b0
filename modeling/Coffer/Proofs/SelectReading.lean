import Coffer.Proofs.ExpressionReading
import Coffer.Proofs.ReadableStatement

namespace Coffer.Language

/-! # Queries read back

Each clause of a query starts with a keyword of its own, and the clauses stand in the order in
which they are read: a clause that is missing is passed over since what follows belongs to a
later one.
-/

variable {bound : Nat} {word : Keyword} {token : Token} {tokens rest : List Token}
variable {expression : Expression}

theorem conditionAfter_reads {found : Option Expression}
    (faithful : ∀ expression ∈ found.toList, expression.Faithful) :
    Reads bound (conditionAfter word) (tokensIn (optionalClause [word] found)) found
      (found.toList.flatMap Expression.placeholders)
      (fun rest => Follows 0 rest ∧ Without (.keyword word) rest) := by
  cases found with
  | none => exact (passes (.keyword word)).bind (.pure none) fun _ ends => ends.2
  | some expression =>
      have read : Reads bound anyExpression _ _ _ _ :=
        anyExpression_reads (faithful expression List.mem_cons_self)
      rw [Option.toList_some, List.flatMap_singleton]
      exact (accepts (.keyword word)).seq (read.map.weaken fun _ ends => ends.1)

/-- Whether a token is taken for an alias after what it names. -/
def startsAlias (token : Token) : Bool :=
  token == .keyword .as || Reader.isIdentifier token

def aliasTokens : Option String → List Token
  | none => []
  | some asName => [.keyword .as, .identifier asName]

theorem asName?_reads (asName : Option String) :
    Reads bound asName? (aliasTokens asName) asName [] (Stops startsAlias) := by
  cases asName with
  | none =>
      intro first rest stops _ _
      have unnamed : Without (.keyword .as) rest :=
        Stops.mono stops fun _ same => Bool.or_eq_true_iff.mpr (.inl same)
      have plain : Stops Reader.isIdentifier rest :=
        Stops.mono stops fun _ same => Bool.or_eq_true_iff.mpr (.inr same)
      change asName? ⟨rest, none, first⟩ = _
      rw [asName?, Reader.acceptWord, Reader.bind_ok (Reader.accept_stops unnamed),
        if_neg Bool.false_ne_true, Reader.name?_stops plain]
      rfl
  | some asName =>
      exact ((accepts (.keyword .as)).seq (takesName asName).map).weaken fun _ _ => trivial

/-- What may stand after an item of a select list. -/
def EndsItem (rest : List Token) : Prop :=
  Follows 0 rest ∧ Stops startsAlias rest

theorem everyOf_reads {relation : String} :
    ReadsAtom [.identifier relation, .symbol .period, .symbol .asterisk]
      (.field (some relation) "*") := by
  intro floor fuel first rest _ _ _ enough
  obtain ⟨fuel, rfl⟩ : ∃ fewer, fuel = fewer + 2 := ⟨fuel - 2, by omega⟩
  rw [List.cons_append, List.cons_append, List.singleton_append, signed_atom rfl, atom,
    Reader.bind_ok (Reader.next_cons _)]
  dsimp only
  rw [Reader.acceptSymbol, Reader.bind_ok (Reader.accept_stops (without_cons (by decide))),
    if_neg Bool.false_ne_true, qualified, Reader.acceptSymbol,
    Reader.bind_ok (Reader.accept_cons _), if_pos rfl, Reader.acceptSymbol,
    Reader.bind_ok (Reader.accept_cons _)]
  rfl

theorem selectItem_reads {item : SelectItem} (readable : item.Readable)
    (faithful : ∀ expression ∈ item.expressions, expression.Faithful) :
    Reads bound selectItem (tokensIn item.marks) item
      (item.expressions.flatMap Expression.placeholders) EndsItem := by
  cases item with
  | every => exact (accepts (.symbol .asterisk)).seq (.pure SelectItem.every)
  | everyOf relation =>
      have read : Reads bound anyExpression _ _ [] _ :=
        (@everyOf_reads relation).above (Nat.zero_le 9)
      exact (passes (.symbol .asterisk)).bind
        (read.bind (.pure (SelectItem.everyOf relation)) fun _ ends => ends.1)
        fun _ _ => without_cons (by simp)
  | expression value asName =>
      have whole := faithful value List.mem_cons_self
      have read : Reads bound anyExpression _ _ _ _ := anyExpression_reads whole
      have form : tokensIn (SelectItem.expression value asName).marks =
          [] ++ (tokensIn value.marks ++ aliasTokens asName) := by
        cases asName with
        | none => exact (List.append_nil _).symm
        | some asName => exact tokensIn_append
      have numbers : (SelectItem.expression value asName).expressions.flatMap
          Expression.placeholders = [] ++ (value.placeholders ++ []) := rfl
      rw [form, numbers]
      refine (passes (.symbol .asterisk)).bind (read.bind ?_ ?_) ?_
      · split
        · rename_i relation
          exact absurd rfl (readable relation asName)
        · exact (asName?_reads asName).map.weaken fun _ ends => ends.2
      · intro rest ends
        cases asName with
        | none => exact ends.1
        | some asName => exact follows_cons rfl rfl rfl
      · intro rest ends
        rw [List.append_assoc]
        exact (leads_of_readable whole.readable).append.without rfl

theorem tableReference_reads (reference : TableReference) :
    Reads bound tableReference (tokensIn reference.marks) reference [] (Stops startsAlias) := by
  obtain ⟨name, asName⟩ := reference
  have form : tokensIn (TableReference.mk name asName).marks = [.identifier name] ++ aliasTokens asName := by
    cases asName with
    | none => rfl
    | some asName => rfl
  rw [form]
  exact (takesName name).seq (asName?_reads asName).map

theorem count_reads {count : Nat} (fits : count < Nat.pow 2 64) :
    Reads bound Reader.count [.number (String.ofList (digitsOf count))] count [] Anything := by
  intro first rest _ _ _
  have read := Numeral.natural64_digitsOf fits
  rw [List.singleton_append, Reader.count, Reader.bind_ok (Reader.next_cons _)]
  dsimp only
  rw [String.toList_ofList, read]
  rfl

/-! ## Joins -/

/-- The keyword a join starts with. -/
def JoinKind.leading : JoinKind → Keyword
  | .inner => .inner
  | .left => .left
  | .right => .right
  | .cross => .cross

theorem keywords_eq {kind : JoinKind} : kind.keywords = [kind.leading, .join] := by
  cases kind <;> rfl

theorem joinKind?_leading {kind : JoinKind} : joinKind? (.keyword kind.leading) = some kind := by
  cases kind <;> rfl

theorem tokensIn_join {join : Join} :
    tokensIn join.marks = [.keyword join.kind.leading] ++ ([.keyword .join] ++
      (tokensIn join.table.marks ++ tokensIn (optionalClause [.on] join.condition))) := by
  rw [Join.marks, keywords_eq, tokensIn_append, tokensIn_clause, tokensIn_space, tokensIn_append]
  rfl

theorem joinWords_reads {kind : JoinKind} :
    Reads bound (joinWords kind (.keyword kind.leading)) [.keyword .join] () [] Anything := by
  have near : Reads bound (Reader.expectWord .join) [.keyword .join] () [] Anything :=
    expects (.keyword .join)
  have outer : Reads bound (do
      let _ ← Reader.acceptWord .outer
      Reader.expectWord .join) [.keyword .join] () [] Anything :=
    (passes (.keyword .outer)).bind near fun _ _ => without_cons (by decide)
  cases kind with
  | inner => exact near
  | left => exact outer
  | right => exact outer
  | cross => exact near

/-- What may stand after the tables of a query. -/
structure EndsJoins (rest : List Token) : Prop where
  item : EndsItem rest
  unjoined : ∀ token ∈ rest.head?, joinKind? token = none

theorem endsItem_keyword (loose : startsTest (.keyword word) = false)
    (none : operator? (.keyword word) = none) (plain : word ≠ .as) :
    EndsItem (.keyword word :: rest) := by
  refine ⟨follows_cons rfl loose none, fun token head => ?_⟩
  cases head
  simp [startsAlias, Reader.isIdentifier, plain]

theorem endsItem_joins {joins : List Join} (ends : EndsItem rest) :
    EndsItem (tokensIn (joins.flatMap Join.marks) ++ rest) := by
  cases joins with
  | nil => exact ends
  | cons join others =>
      rw [List.flatMap_cons, tokensIn_append, tokensIn_join]
      cases join.kind with
      | inner | left | right | cross => exact endsItem_keyword rfl rfl (by decide)

theorem joinsWithin_reads {joins : List Join} {limit : Nat}
    (conditional : ∀ join ∈ joins, join.kind = .cross ↔ join.condition = none)
    (faithful : ∀ join ∈ joins, ∀ expression ∈ join.condition.toList, expression.Faithful)
    (enough : joins.length ≤ limit) :
    Reads bound (joinsWithin limit) (tokensIn (joins.flatMap Join.marks)) joins
      (joins.flatMap fun join => join.condition.toList.flatMap Expression.placeholders)
      EndsJoins := by
  induction joins generalizing limit with
  | nil =>
      intro first rest ends _ _
      cases limit with
      | zero => rfl
      | succ limit =>
          change joinsWithin (limit + 1) ⟨rest, none, first⟩ = _
          have unjoined : rest.head?.bind joinKind? = none := by
            cases head : rest.head? with
            | none => rfl
            | some token => exact ends.unjoined token head
          rw [joinsWithin, Reader.bind_ok Reader.peek_eq, unjoined]
          rfl
  | cons join others ih =>
      obtain ⟨kinded, conditional⟩ := List.forall_mem_cons.mp conditional
      obtain ⟨conditioned, faithful⟩ := List.forall_mem_cons.mp faithful
      obtain ⟨limit, rfl⟩ : ∃ fewer, limit = fewer + 1 := ⟨limit - 1, by
        rw [List.length_cons] at enough
        omega⟩
      have further := ih conditional faithful (Nat.le_of_succ_le_succ enough)
      have form : tokensIn ((join :: others).flatMap Join.marks) =
          [.keyword join.kind.leading] ++ ([.keyword .join] ++ (tokensIn join.table.marks ++
            (tokensIn (optionalClause [.on] join.condition) ++
              tokensIn (others.flatMap Join.marks)))) := by
        rw [List.flatMap_cons, tokensIn_append, tokensIn_join]
        simp only [List.append_assoc]
      have numbers : (join :: others).flatMap
            (fun join => join.condition.toList.flatMap Expression.placeholders) =
          [] ++ ([] ++ ([] ++ (join.condition.toList.flatMap Expression.placeholders ++
            others.flatMap fun join => join.condition.toList.flatMap Expression.placeholders))) :=
        rfl
      rw [form, numbers, joinsWithin]
      refine .peeked ?_ fun _ _ => rfl
      rw [Option.bind_some, joinKind?_leading]
      refine (takes _).seq (joinWords_reads.seq ((tableReference_reads join.table).bind ?_ ?_))
      · obtain ⟨kind, table, condition⟩ := join
        cases condition with
        | none =>
            rw [if_pos (kinded.mpr rfl)]
            exact (Reads.pure none).seq further.map
        | some expression =>
            have read : Reads bound anyExpression _ _ _ _ :=
              anyExpression_reads (conditioned expression List.mem_cons_self)
            have shown : (some expression).toList.flatMap Expression.placeholders =
                expression.placeholders := List.flatMap_singleton _ _
            have words : tokensIn (optionalClause [.on] (some expression)) =
                [.keyword .on] ++ tokensIn expression.marks := rfl
            have joined : kind ≠ .cross := fun cross => nomatch kinded.mp cross
            have words : tokensIn (optionalClause [.on] (some expression)) =
                [.keyword .on] ++ tokensIn expression.marks := rfl
            dsimp only
            rw [if_neg joined, shown, words, List.append_assoc]
            refine (expects (.keyword .on)).seq
              (read.bind ((Reads.pure (some expression)).seq further.map) ?_)
            exact fun rest ends => (endsItem_joins ends.item).1
      · intro rest ends
        cases join.condition with
        | none => exact (endsItem_joins ends.item).2
        | some expression =>
            intro token head
            cases head
            rfl

theorem length_le_joins {joins : List Join} :
    joins.length ≤ (tokensIn (joins.flatMap Join.marks)).length := by
  induction joins with
  | nil => exact Nat.le_refl _
  | cons join others ih =>
      rw [List.flatMap_cons, tokensIn_append, tokensIn_join, List.length_append]
      simp only [List.length_append, List.length_cons]
      omega

theorem joins_reads {found : List Join}
    (conditional : ∀ join ∈ found, join.kind = .cross ↔ join.condition = none)
    (faithful : ∀ join ∈ found, ∀ expression ∈ join.condition.toList, expression.Faithful) :
    Reads bound joins (tokensIn (found.flatMap Join.marks)) found
      (found.flatMap fun join => join.condition.toList.flatMap Expression.placeholders)
      EndsJoins := by
  intro first rest ends numbered room
  have enough : found.length ≤ (tokensIn (found.flatMap Join.marks) ++ rest).length + 1 := by
    have := @length_le_joins found
    rw [List.length_append]
    omega
  exact joinsWithin_reads conditional faithful enough ends numbered room

/-! ## Clauses -/

/-- The place of the clause that a token starts, from 1 for the tables to 8 for the offset;
0 for the tokens that start none. -/
def clausePlace : Token → Nat
  | .keyword .«from» => 1
  | .keyword .inner => 2
  | .keyword .left => 2
  | .keyword .right => 2
  | .keyword .cross => 2
  | .keyword .«where» => 3
  | .keyword .group => 4
  | .keyword .having => 5
  | .keyword .order => 6
  | .keyword .limit => 7
  | .keyword .offset => 8
  | _ => 0

/-- Whether a rest starts with a clause that stands in the given place or a later one. -/
def OpensFrom (place : Nat) (rest : List Token) : Prop :=
  ∀ token ∈ rest.head?, place ≤ clausePlace token

theorem opensFrom_nil {place : Nat} : OpensFrom place [] := nofun

theorem OpensFrom.mono {place later : Nat} (opens : OpensFrom later rest)
    (before : place ≤ later) : OpensFrom place rest :=
  fun token head => Nat.le_trans before (opens token head)

theorem OpensFrom.append {place : Nat} (opens : OpensFrom place rest)
    (starts : ∀ token ∈ tokens.head?, place ≤ clausePlace token) :
    OpensFrom place (tokens ++ rest) := by
  cases tokens with
  | nil => exact opens
  | cons token others => exact starts

theorem OpensFrom.without {place : Nat} (opens : OpensFrom place rest)
    (earlier : clausePlace token < place) : Without token rest := by
  intro other head
  refine beq_eq_false_iff_ne.mpr fun same => ?_
  have late := opens other head
  rw [same] at late
  omega

theorem OpensFrom.item (opens : OpensFrom 1 rest) : EndsItem rest := by
  cases rest with
  | nil => exact ⟨⟨nofun, nofun, nofun⟩, nofun⟩
  | cons token others =>
      have starts := opens token rfl
      unfold clausePlace at starts
      split at starts
      all_goals first | exact endsItem_keyword rfl rfl (by decide) | contradiction

theorem OpensFrom.joins (opens : OpensFrom 3 rest) : EndsJoins rest := by
  refine ⟨(opens.mono (by decide)).item, fun token head => ?_⟩
  have starts := opens token head
  unfold clausePlace at starts
  split at starts
  all_goals first | rfl | contradiction

/-- Whether tokens, if there are any, start with the given keyword. -/
def LedBy (word : Keyword) (tokens : List Token) : Prop :=
  ∀ token ∈ tokens.head?, token = .keyword word

theorem ledBy_condition {found : Option Expression} :
    LedBy word (tokensIn (optionalClause [word] found)) := by
  cases found with
  | none => exact nofun
  | some expression => rintro token ⟨⟩; rfl

theorem ledBy_list {α : Type} {second : Keyword} {values : List α} {marks : List Mark} :
    LedBy word
      (tokensIn (if values.isEmpty then [] else Mark.clause [word, second] ++ marks)) := by
  cases values with
  | nil => exact nofun
  | cons value others => rintro token ⟨⟩; rfl

theorem ledBy_count {count : Option Nat} : LedBy word (tokensIn (countClause word count)) := by
  cases count with
  | none => exact nofun
  | some count => rintro token ⟨⟩; rfl

/-- Whether a reader reads the clauses of a query from the given place on up to its end. -/
structure Trails {α : Type} (bound place : Nat) (reader : Reader α) (tokens : List Token)
    (value : α) (numbers : List Nat) : Prop where
  reads : Reads bound reader tokens value numbers (· = [])
  opens : OpensFrom place tokens

section Clauses

variable {α β : Type} {reader : Reader α} {next : α → Reader β} {value : α} {result : β}
variable {place : Nat} {others : List Token} {numbers more : List Nat}
variable {follows : List Token → Prop}

theorem Trails.meets (trails : Trails bound place reader others value more) :
    ∀ rest, rest = [] → OpensFrom place (others ++ rest) := by
  rintro rest rfl
  rw [List.append_nil]
  exact trails.opens

theorem Trails.after (led : LedBy word tokens) (here : clausePlace (.keyword word) = place)
    (front : Reads bound reader tokens value numbers (OpensFrom (place + 1)))
    (back : Trails bound (place + 1) (next value) others result more) :
    Trails bound place (reader >>= next) (tokens ++ others) result (numbers ++ more) := by
  refine ⟨front.bind back.reads back.meets, ?_⟩
  refine (back.opens.mono (Nat.le_succ place)).append fun token head => ?_
  rw [led token head, here]

theorem condition_reads {found : Option Expression}
    (faithful : ∀ expression ∈ found.toList, expression.Faithful)
    (here : clausePlace (.keyword word) < place) :
    Reads bound (conditionAfter word) (tokensIn (optionalClause [word] found)) found
      (found.toList.flatMap Expression.placeholders) (OpensFrom place) :=
  (conditionAfter_reads faithful).weaken fun _ opens =>
    ⟨(opens.mono (Nat.lt_of_le_of_lt (Nat.zero_le _) here)).item.1, opens.without here⟩

/-- Whether a token gives the direction of an order. -/
def isDirection (token : Token) : Bool :=
  token == .keyword .asc || token == .keyword .desc

theorem orderTerm_reads {term : OrderTerm} (faithful : term.key.Faithful) :
    Reads bound orderTerm (tokensIn term.marks) term term.key.placeholders
      (fun rest => Follows 0 rest ∧ Stops isDirection rest) := by
  obtain ⟨key, descending⟩ := term
  have read : Reads bound anyExpression _ _ _ _ := anyExpression_reads faithful
  have numbers : key.placeholders = key.placeholders ++ [] := (List.append_nil _).symm
  rw [OrderTerm.marks, tokensIn_append, orderTerm, numbers]
  cases descending with
  | false =>
      refine read.bind (Reads.map (takesNone isDirection) |>.weaken ?_) ?_
      · exact fun _ ends => ends.2
      · exact fun _ ends => ends.1
  | true =>
      have taken : Reads bound (Reader.takeIf isDirection) [.keyword .desc] _ [] Anything :=
        takesIf rfl
      refine read.bind (taken.map.weaken ?_) ?_
      · exact fun _ _ => trivial
      · exact fun _ _ => follows_cons rfl rfl rfl

theorem OpensFrom.term (opens : OpensFrom place rest) (positive : 0 < place) :
    Follows 0 rest ∧ Stops isDirection rest := by
  refine ⟨(opens.mono positive).item.1, fun token head => ?_⟩
  have up : Without (.keyword .asc) rest := opens.without positive
  have down : Without (.keyword .desc) rest := opens.without positive
  exact Bool.or_eq_false_iff.mpr ⟨up token head, down token head⟩

theorem listAfter_reads {shown : α → List Mark} {numbers : α → List Nat} {values : List α}
    {second : Keyword} (here : clausePlace (.keyword word) < place)
    (reads : ∀ value ∈ values,
      Reads bound reader (tokensIn (shown value)) value (numbers value) follows)
    (comma : ∀ more, follows (.symbol .comma :: more))
    (ends : ∀ rest, OpensFrom place rest → follows rest) :
    Reads bound (listAfter word second reader)
      (tokensIn (if values.isEmpty then []
        else Mark.clause [word, second] ++ (.space :: Mark.separated (values.map shown))))
      values (values.flatMap numbers) (OpensFrom place) := by
  cases values with
  | nil => exact (passes (.keyword word)).bind (.pure []) fun _ opens => opens.without here
  | cons value others =>
      have read := separated_reads (List.cons_ne_nil value others) reads comma
      have words : tokensIn (if (value :: others).isEmpty then [] else
          Mark.clause [word, second] ++ (.space :: Mark.separated ((value :: others).map shown))) =
          [.keyword word] ++ ([.keyword second] ++
            commaTokens ((value :: others).map fun value => tokensIn (shown value))) := by
        rw [List.isEmpty_cons, if_neg Bool.false_ne_true, tokensIn_append, tokensIn_clause,
          tokensIn_space, tokensIn_separated, List.map_map]
        rfl
      rw [words]
      refine (accepts (.keyword word)).seq ?_
      rw [if_pos rfl]
      refine (expects (.keyword second)).seq (read.weaken fun rest opens => ⟨ends rest opens, ?_⟩)
      exact opens.without (Nat.lt_of_le_of_lt (Nat.zero_le _) here)

/-! ## Bounds -/

theorem tokensIn_count {count : Nat} :
    tokensIn (countClause word (some count)) =
      [.keyword word] ++ [.number (String.ofList (digitsOf count))] := by
  rw [countClause, tokensIn_append, tokensIn_clause]
  rfl

theorem offset_reads {limit offset : Option Nat} (fits : ∀ count ∈ offset, count < Nat.pow 2 64) :
    Reads bound (do
        if ← Reader.acceptWord .offset then
          let found ← Reader.count
          return (limit, some found)
        else return (limit, none))
      (tokensIn (countClause .offset offset)) (limit, offset) [] (· = []) := by
  cases offset with
  | none =>
      refine (passes (.keyword .offset)).bind (.pure (limit, none)) fun rest ends => ?_
      rw [ends]
      exact without_nil
  | some count =>
      rw [tokensIn_count]
      refine (accepts (.keyword .offset)).seq ?_
      exact (count_reads (fits count rfl)).map.weaken fun _ _ => trivial

theorem bounds_reads {limit offset : Option Nat} (first : ∀ count ∈ limit, count < Nat.pow 2 64)
    (second : ∀ count ∈ offset, count < Nat.pow 2 64) :
    Trails bound 7 bounds
      (tokensIn (countClause .limit limit) ++ tokensIn (countClause .offset offset))
      (limit, offset) [] := by
  have late : OpensFrom 8 (tokensIn (countClause .offset offset)) := by
    intro token head
    rw [ledBy_count token head]
    exact Nat.le_refl 8
  have last : ∀ limit, Trails bound 8 _ _ (limit, offset) [] := fun _ => ⟨offset_reads second, late⟩
  refine ⟨?_, (late.mono (by decide)).append fun token head => ?_⟩
  · cases limit with
    | none =>
        refine (passes (.keyword .limit)).bind ?_ fun rest ends =>
          ((last none).meets rest ends).without (by decide)
        exact (Reads.pure (none, none)).seq (last none).reads
    | some count =>
        rw [tokensIn_count, List.append_assoc]
        refine (accepts (.keyword .limit)).seq ?_
        dsimp only
        rw [if_pos rfl]
        refine (count_reads (first count rfl)).seq ?_
        refine (passes (.symbol .comma)).bind ?_ fun rest ends =>
          ((last none).meets rest ends).without (by decide)
        exact (Reads.pure (some count, none)).seq (last (some count)).reads
  · rw [ledBy_count token head]
    exact Nat.le_refl 7

theorem clauses_read {query : Select}
    {make : Option Expression → List Expression → Option Expression → List OrderTerm →
      Option Nat × Option Nat → Reader Select}
    (filtered : ∀ expression ∈ query.condition.toList, expression.Faithful)
    (grouped : ∀ expression ∈ query.grouping, expression.Faithful)
    (kept : ∀ expression ∈ query.having.toList, expression.Faithful)
    (ordered : ∀ term ∈ query.ordering, term.key.Faithful)
    (limited : ∀ count ∈ query.limit, count < Nat.pow 2 64)
    (skipped : ∀ count ∈ query.offset, count < Nat.pow 2 64)
    (made : make query.condition query.grouping query.having query.ordering
      (query.limit, query.offset) = pure query) :
    Trails bound 3 (do
        let condition ← conditionAfter .«where»
        let grouping ← listAfter .group .«by» anyExpression
        let having ← conditionAfter .having
        let ordering ← listAfter .order .«by» orderTerm
        let both ← bounds
        make condition grouping having ordering both)
      (tokensIn (optionalClause [.«where»] query.condition) ++
        (tokensIn (if query.grouping.isEmpty then [] else Mark.clause [.group, .«by»] ++
            (.space :: Mark.separated (query.grouping.map Expression.marks))) ++
          (tokensIn (optionalClause [.having] query.having) ++
            (tokensIn (if query.ordering.isEmpty then [] else Mark.clause [.order, .«by»] ++
                (.space :: Mark.separated (query.ordering.map OrderTerm.marks))) ++
              (tokensIn (countClause .limit query.limit) ++
                tokensIn (countClause .offset query.offset))))))
      query
      (query.condition.toList.flatMap Expression.placeholders ++
        (query.grouping.flatMap Expression.placeholders ++
          (query.having.toList.flatMap Expression.placeholders ++
            (query.ordering.flatMap (fun term => term.key.placeholders) ++ [])))) := by
  have gathered : Reads bound (listAfter .group .«by» anyExpression) _ _ _ (OpensFrom 5) :=
    listAfter_reads (by decide) (fun key member => anyExpression_reads (grouped key member))
      (fun _ => follows_comma) fun _ opens => (opens.term (by decide)).1
  have sorted : Reads bound (listAfter .order .«by» orderTerm) _ _ _ (OpensFrom 7) :=
    listAfter_reads (by decide) (fun term member => orderTerm_reads (ordered term member))
      (fun _ => ⟨follows_comma, fun _ head => by cases head; rfl⟩)
      fun _ opens => opens.term (by decide)
  have bounded : Trails bound 7 bounds _ _ [] := bounds_reads limited skipped
  refine .after ledBy_condition rfl (condition_reads filtered (by decide)) ?_
  refine .after ledBy_list rfl gathered ?_
  refine .after ledBy_condition rfl (condition_reads kept (by decide)) ?_
  refine .after ledBy_list rfl sorted ?_
  exact ⟨bounded.reads.last made, bounded.opens⟩

end Clauses

/-! ## Whole queries -/

/-- The tokens that name the first table. -/
def sourceTokens : Option TableReference → List Token
  | none => []
  | some source => .keyword .«from» :: tokensIn source.marks

theorem tables_read {α : Type} {next : Option TableReference × List Join → Reader α}
    {source : Option TableReference} {found : List Join} {others : List Token} {result : α}
    {more : List Nat} (unjoined : source = none → found = [])
    (conditional : ∀ join ∈ found, join.kind = .cross ↔ join.condition = none)
    (faithful : ∀ join ∈ found, ∀ expression ∈ join.condition.toList, expression.Faithful)
    (back : Trails bound 3 (next (source, found)) others result more) :
    Trails bound 1 (do
        if ← Reader.acceptWord .«from» then
          let first ← tableReference
          let rest ← joins
          let both ← pure (some first, rest)
          next both
        else
          let both ← pure (none, [])
          next both)
      (sourceTokens source ++ (tokensIn (found.flatMap Join.marks) ++ others)) result
      ((found.flatMap fun join => join.condition.toList.flatMap Expression.placeholders) ++
        more) := by
  cases source with
  | none =>
      cases unjoined rfl
      refine ⟨?_, back.opens.mono (by decide)⟩
      refine (passes (.keyword .«from»)).bind ?_ fun rest ends =>
        (back.meets rest ends).without (by decide)
      exact (Reads.pure (none, [])).seq back.reads
  | some source =>
      refine ⟨?_, fun token head => by cases head; exact Nat.le_refl 1⟩
      refine (accepts (.keyword .«from»)).seq ?_
      rw [if_pos rfl]
      refine (tableReference_reads source).bind ?_ ?_
      · exact (joins_reads conditional faithful).bind
          ((Reads.pure (some source, found)).seq back.reads)
          fun rest ends => (back.meets rest ends).joins
      · intro rest ends
        rw [List.append_assoc]
        exact (endsItem_joins (back.meets rest ends).joins.item).2

theorem selectItem_without {item : SelectItem}
    (readable : ∀ expression ∈ item.expressions, expression.Readable)
    (none : startsExpression token = false) (starless : .symbol .asterisk ≠ token) :
    Without token (tokensIn item.marks ++ rest) := by
  cases item with
  | every => exact without_cons starless
  | everyOf relation =>
      refine without_cons ?_
      rintro rfl
      cases none
  | expression value asName =>
      have leads := leads_of_readable (readable value List.mem_cons_self)
      cases asName with
      | none => exact leads.append.without none
      | some asName =>
          rw [SelectItem.marks, tokensIn_append, List.append_assoc]
          exact leads.append.without none

def distinctTokens : Bool → List Token
  | false => []
  | true => [.keyword .distinct]

theorem tokensIn_select {query : Select} :
    tokensIn query.marks = [.keyword .select] ++ (distinctTokens query.distinct ++
      (commaTokens (query.items.map fun item => tokensIn item.marks) ++
        (sourceTokens query.source ++ (tokensIn (query.joins.flatMap Join.marks) ++
          (tokensIn (optionalClause [.«where»] query.condition) ++
            (tokensIn (if query.grouping.isEmpty then [] else Mark.clause [.group, .«by»] ++
                (.space :: Mark.separated (query.grouping.map Expression.marks))) ++
              (tokensIn (optionalClause [.having] query.having) ++
                (tokensIn (if query.ordering.isEmpty then [] else Mark.clause [.order, .«by»] ++
                    (.space :: Mark.separated (query.ordering.map OrderTerm.marks))) ++
                  (tokensIn (countClause .limit query.limit) ++
                    tokensIn (countClause .offset query.offset)))))))))) := by
  obtain ⟨distinct, items, source, joins, condition, grouping, having, ordering, limit, offset⟩ := query
  have first : tokensIn (if distinct then Mark.clause [.distinct] else []) =
      distinctTokens distinct := by
    cases distinct <;> rfl
  have listed : tokensIn (Mark.separated (items.map SelectItem.marks)) =
      commaTokens (items.map fun item => tokensIn item.marks) := by
    rw [tokensIn_separated, List.map_map]
    rfl
  rw [Select.marks, Mark.word, tokensIn_token]
  simp only [tokensIn_append, tokensIn_space, first, listed, List.append_assoc]
  cases source <;> rfl

theorem placeholders_select {query : Select} :
    query.expressions.flatMap Expression.placeholders =
      (query.items.flatMap fun item => item.expressions.flatMap Expression.placeholders) ++
        ((query.joins.flatMap fun join => join.condition.toList.flatMap Expression.placeholders) ++
          (query.condition.toList.flatMap Expression.placeholders ++
            (query.grouping.flatMap Expression.placeholders ++
              (query.having.toList.flatMap Expression.placeholders ++
                query.ordering.flatMap fun term => term.key.placeholders)))) := by
  simp only [Select.expressions, List.flatMap_append, List.flatMap_assoc, List.flatMap_map]

theorem listing_reads {next : List SelectItem → Reader Select} {items : List SelectItem}
    {others : List Token} {result : Select} {more : List Nat} (listed : items ≠ [])
    (readable : ∀ item ∈ items, item.Readable)
    (faithful : ∀ item ∈ items, ∀ expression ∈ item.expressions, expression.Faithful)
    (back : Trails bound 1 (next items) others result more) :
    Reads bound (Reader.separated selectItem >>= next)
      (commaTokens (items.map fun item => tokensIn item.marks) ++ others) result
      ((items.flatMap fun item => item.expressions.flatMap Expression.placeholders) ++ more)
      (· = []) := by
  have read : Reads bound (Reader.separated selectItem) _ items _ _ :=
    separated_reads listed
      (fun item member => selectItem_reads (readable item member) (faithful item member))
      fun _ => ⟨follows_comma, fun _ head => by cases head; rfl⟩
  refine read.bind back.reads fun rest ends => ?_
  have opens := back.meets rest ends
  exact ⟨opens.item, opens.without (by decide)⟩

theorem listing_without {items : List SelectItem} (listed : items ≠ [])
    (readable : ∀ item ∈ items, ∀ expression ∈ item.expressions, expression.Readable)
    (none : startsExpression token = false) (starless : .symbol .asterisk ≠ token) :
    Without token (commaTokens (items.map fun item => tokensIn item.marks) ++ rest) := by
  obtain ⟨item, others, rfl⟩ := List.exists_cons_of_ne_nil listed
  rw [List.map_cons, commaTokens, List.append_assoc]
  exact selectItem_without (readable item List.mem_cons_self) none starless

/-- A query is read back up to the end of the text. -/
theorem select_reads {query : Select} (readable : query.Readable)
    (faithful : ∀ expression ∈ query.expressions, expression.Faithful) :
    Reads bound select (tokensIn query.marks) query
      (query.expressions.flatMap Expression.placeholders) (· = []) := by
  simp only [Select.expressions, List.forall_mem_append, List.forall_mem_flatMap,
    List.forall_mem_map] at faithful
  obtain ⟨selected, joined, filtered, grouped, kept, ordered⟩ := faithful
  have started : ∀ item ∈ query.items, ∀ expression ∈ item.expressions, expression.Readable :=
    fun item member expression within => (selected item member expression within).readable
  rw [tokensIn_select, placeholders_select, select,
    ← List.append_nil (query.ordering.flatMap fun term => term.key.placeholders)]
  refine (expects (.keyword .select)).seq ?_
  dsimp only
  cases form : query.distinct with
  | false =>
      refine (passes (.keyword .distinct)).bind ?_ ?_
      · rw [if_pos rfl]
        refine (passes (.keyword .all)).bind ?_ ?_
        · refine listing_reads readable.listed readable.items selected ?_
          refine tables_read readable.unjoined readable.joins joined ?_
          refine clauses_read filtered grouped kept ordered readable.limit readable.offset ?_
          rw [← form]
        · rintro rest rfl
          rw [List.append_nil]
          exact listing_without readable.listed started rfl nofun
      · rintro rest rfl
        rw [List.append_nil]
        exact listing_without readable.listed started rfl nofun
  | true =>
      refine (accepts (.keyword .distinct)).seq ?_
      rw [if_neg nofun]
      refine listing_reads readable.listed readable.items selected ?_
      refine tables_read readable.unjoined readable.joins joined ?_
      refine clauses_read filtered grouped kept ordered readable.limit readable.offset ?_
      rw [← form]

end Coffer.Language
