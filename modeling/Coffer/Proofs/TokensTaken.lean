import Coffer.Proofs.FilledStatement

namespace Coffer.Language

/-! # Tokens that are taken

A reader takes tokens off the head of a text and leaves what follows them as it stands, with any
fault behind it. So a statement is read only from a text without a fault, and what is read before
a WHERE ends there.
-/

variable {α β : Type} {passing : Token → Prop} {reader : Reader α} {following : α → Reader β}
variable {cursor : Cursor} {token : Token}

/-- Whether a reader takes off only tokens that pass, and leaves the fault behind them. -/
def TakesAt (passing : Token → Prop) (cursor : Cursor) (reader : Reader α) : Prop :=
  ∀ ⦃value after⦄, reader cursor = .ok (value, after) →
    after.fault = cursor.fault ∧
      ∃ taken, cursor.tokens = taken ++ after.tokens ∧ ∀ token ∈ taken, passing token

/-- Whether this is so wherever the reader starts. -/
def Takes (passing : Token → Prop) (reader : Reader α) : Prop :=
  ∀ cursor, TakesAt passing cursor reader

/-- Whether a reader leaves what follows the tokens that it takes. -/
abbrev Advances (reader : Reader α) : Prop :=
  Takes (fun _ => True) reader

namespace TakesAt

theorem bind (front : TakesAt passing cursor reader)
    (back : ∀ value, Takes passing (following value)) :
    TakesAt passing cursor (reader >>= following) := by
  intro result after ran
  obtain ⟨value, middle, first, second⟩ := Reader.bind_eq_ok_iff.mp ran
  obtain ⟨fault, taken, split, pass⟩ := front first
  obtain ⟨same, more, further, others⟩ := back value middle second
  refine ⟨same.trans fault, taken ++ more, ?_, List.forall_mem_append.mpr ⟨pass, others⟩⟩
  rw [split, further, List.append_assoc]

/-- A token that is known to stand first. -/
theorem next {following : Token → Reader β} (head : cursor.tokens.head? = some token)
    (passes : passing token) (back : Takes passing (following token)) :
    TakesAt passing cursor (Reader.next >>= following) := by
  obtain ⟨tokens, fault, count⟩ := cursor
  obtain ⟨rest, rfl⟩ := List.head?_eq_some_iff.mp head
  intro result after ran
  obtain ⟨same, taken, split, pass⟩ := back _ ran
  exact ⟨same, token :: taken, congrArg (token :: ·) split, List.forall_mem_cons.mpr ⟨passes, pass⟩⟩

/-- A look at the token that stands first. -/
theorem glance {following : Option Token → Reader β}
    (back : TakesAt passing cursor (following cursor.tokens.head?)) :
    TakesAt passing cursor (Reader.glance >>= following) :=
  fun _ _ ran => back ran

end TakesAt

namespace Takes

variable {other : Reader α} {condition : Prop} {error : Error} {checked : Except Error α} {value : α}

theorem bind (front : Takes passing reader) (back : ∀ value, Takes passing (following value)) :
    Takes passing (reader >>= following) :=
  fun cursor => (front cursor).bind back

/-- What is found is handed on, perhaps changed. -/
theorem pure : Takes passing (Pure.pure value : Reader α) := by
  intro cursor found after ran
  obtain ⟨-, rfl⟩ := Reader.pure_eq_ok_iff.mp ran
  exact ⟨rfl, [], rfl, List.forall_mem_nil _⟩

theorem map {change : α → β} (front : Takes passing reader) :
    Takes passing (reader >>= fun value => Pure.pure (change value)) :=
  front.bind fun _ => .pure

theorem throw : Takes passing (throw error : Reader α) :=
  fun _ _ _ ran => absurd ran Reader.throw_ne_ok

theorem lift : Takes passing (liftM checked : Reader α) := by
  intro cursor found after ran
  obtain ⟨-, rfl⟩ := Reader.lift_eq_ok_iff.mp ran
  exact ⟨rfl, [], rfl, List.forall_mem_nil _⟩

theorem ite [Decidable condition] (holds : Takes passing reader) (fails : Takes passing other) :
    Takes passing (if condition then reader else other) := by
  split
  · exact holds
  · exact fails

/-- Tokens that pass may pass a weaker test. -/
theorem advances (takes : Takes passing reader) : Advances reader := by
  intro cursor found after ran
  obtain ⟨fault, taken, split, -⟩ := takes cursor ran
  exact ⟨fault, taken, split, fun _ _ => trivial⟩

/-! ## Tokens -/

theorem glance : Takes passing Reader.glance := by
  rintro cursor found after ⟨⟩
  exact ⟨rfl, [], rfl, List.forall_mem_nil _⟩

theorem peek : Takes passing Reader.peek := by
  intro cursor found after ran
  obtain ⟨-, rfl⟩ := Reader.peek_eq_ok ran
  exact ⟨rfl, [], rfl, List.forall_mem_nil _⟩

/-- The next token, where nothing is read after a token that does not pass. -/
theorem next {following : Token → Reader β}
    (refuses : ∀ token, ¬ passing token → ∀ cursor result, following token cursor ≠ .ok result)
    (each : ∀ token, Takes passing (following token)) :
    Takes passing (Reader.next >>= following) := by
  rintro ⟨tokens, fault, count⟩ result after ran
  cases tokens with
  | nil => cases ran
  | cons token rest =>
      have passes : passing token := by
        by_contra fails
        exact refuses token fails _ _ ran
      exact TakesAt.next rfl passes (each token) ran

theorem takeIf {test : Token → Bool} (passes : ∀ token, test token = true → passing token) :
    Takes passing (Reader.takeIf test) := by
  intro cursor found after ran
  rw [Reader.takeIf] at ran
  split at ran
  · rename_i first rest tokens
    split at ran
    · rename_i taken
      cases ran
      exact ⟨rfl, [first], tokens, List.forall_mem_singleton.mpr (passes first taken)⟩
    · cases ran
      exact ⟨rfl, [], rfl, List.forall_mem_nil _⟩
  · cases ran
    exact ⟨rfl, [], rfl, List.forall_mem_nil _⟩

theorem accept (passes : passing token) : Takes passing (Reader.accept token) :=
  (takeIf fun _ same => beq_iff_eq.mp same ▸ passes).map

theorem expect (passes : passing token) : Takes passing (Reader.expect token) := by
  refine next (fun found fails cursor result => ?_) fun found => .ite .pure .throw
  have apart : found ≠ token := fun same => fails (same ▸ passes)
  rw [if_neg apart]
  nofun

theorem name (passes : ∀ name, passing (.identifier name)) : Takes passing Reader.name := by
  refine next (fun token fails cursor result => ?_) fun token => ?_
  · cases token with
    | identifier name => exact absurd (passes name) fails
    | _ => nofun
  · split
    · exact .pure
    · exact .throw

theorem separatedWithin (items : Takes passing reader) (comma : passing (.symbol .comma))
    (limit : Nat) : Takes passing (Reader.separatedWithin reader limit) := by
  induction limit with
  | zero => exact items.map
  | succ limit ih => exact items.bind fun _ => (accept comma).bind fun _ => .ite ih.map .pure

theorem separated (items : Takes passing reader) (comma : passing (.symbol .comma)) :
    Takes passing (Reader.separated reader) :=
  fun cursor _ _ ran => items.separatedWithin comma cursor.tokens.length cursor ran

theorem foldlM {σ : Type} {step : σ → α → Reader σ} {start : σ} {items : List α}
    (each : ∀ state item, Takes passing (step state item)) :
    Takes passing (items.foldlM step start) := by
  induction items generalizing start with
  | nil => exact .pure
  | cons item items ih =>
      rw [List.foldlM_cons]
      exact (each start item).bind fun _ => ih

end Takes

/-! ## Expressions -/

/-- Tokens other than the keyword that starts a condition. -/
def NotWhere (token : Token) : Prop :=
  token ≠ .keyword .«where»

theorem NotWhere.symbol {symbol : Symbol} : NotWhere (.symbol symbol) := by
  rintro ⟨⟩

theorem NotWhere.identifier {name : String} : NotWhere (.identifier name) := by
  rintro ⟨⟩

theorem NotWhere.number {text : String} : NotWhere (.number text) := by
  rintro ⟨⟩

theorem NotWhere.keyword {keyword : Keyword} (other : keyword ≠ .«where») :
    NotWhere (.keyword keyword) := by
  rintro ⟨⟩
  exact other rfl

theorem notWhere_of_not {token : Token} (fails : ¬ NotWhere token) : token = .keyword .«where» :=
  of_not_not fails

theorem qualified_takes {first : String} : Takes NotWhere (qualified first) := by
  refine (Takes.accept .symbol).bind fun _ => .ite ?_ .pure
  exact (Takes.accept .symbol).bind fun _ => .ite .pure (Takes.name fun _ => .identifier).map

theorem placeholder_takes : Takes NotWhere placeholder := by
  rintro cursor value after ⟨⟩
  exact ⟨rfl, [], rfl, List.forall_mem_nil _⟩

/-- What the readers of expressions take that may call each other as often as the fuel says. -/
structure TakesExpressions (fuel : Nat) : Prop where
  expression : ∀ floor, Takes NotWhere (Language.expression fuel floor)
  signed : ∀ floor, Takes NotWhere (Language.signed fuel floor)
  atom : Takes NotWhere (Language.atom fuel)
  arguments : ∀ function first, Takes NotWhere (Language.arguments fuel function first)
  tests : ∀ floor operand, Takes NotWhere (Language.tests fuel floor operand)
  test : ∀ operand token, Takes NotWhere (Language.test fuel operand token)
  membership : ∀ operand, Takes NotWhere (Language.membership fuel operand)
  range : ∀ operand, Takes NotWhere (Language.range fuel operand)
  operations : ∀ floor operand, Takes NotWhere (Language.operations fuel floor operand)

namespace TakesExpressions

variable {fuel : Nat}

theorem zero : TakesExpressions 0 := by
  constructor <;> intros
  case tests =>
    rw [Language.tests]
    exact .pure
  case operations =>
    rw [Language.operations]
    exact .pure
  all_goals
    simp only [Language.expression, Language.signed, Language.atom, Language.arguments,
      Language.test, Language.membership, Language.range]
    exact .throw

variable (all : TakesExpressions fuel)
include all

theorem signed_succ (floor : Nat) : Takes NotWhere (Language.signed (fuel + 1) floor) := by
  have sign (apply : Expression → Except Error Expression) :
      Takes NotWhere (Language.expression fuel signPrecedence >>= fun operand => liftM (apply operand)) :=
    (all.expression signPrecedence).bind fun _ => .lift
  rw [Language.signed]
  refine fun cursor => .glance ?_
  split
  · rename_i head
    split
    · exact .next head (.keyword (by decide)) (all.expression 3).map
    · exact all.atom cursor
  · rename_i head
    split
    · refine .next head .symbol fun cursor => .glance ?_
      split
      · rename_i head
        exact .next head .number (Takes.lift.bind fun _ => .pure)
      · exact sign negated cursor
    · exact all.atom cursor
  · rename_i head
    split
    · exact .next head .symbol (sign affirmed)
    · exact all.atom cursor
  · exact all.atom cursor

theorem atom_succ : Takes NotWhere (Language.atom (fuel + 1)) := by
  rw [Language.atom]
  refine .next (fun token fails cursor result => ?_) fun token => ?_
  · rw [notWhere_of_not fails]
    exact Reader.throw_ne_ok
  · split
    · exact (Takes.accept .symbol).bind fun _ => .ite (all.arguments _ true).map qualified_takes
    · exact Takes.lift.bind fun _ => .pure
    · exact (all.expression 0).bind fun _ => (Takes.expect .symbol).map
    · exact placeholder_takes
    · exact .pure
    · exact .pure
    · exact .pure
    · exact .pure
    · exact .throw

theorem arguments_succ (function : String) (first : Bool) :
    Takes NotWhere (Language.arguments (fuel + 1) function first) := by
  have others (argument : Expression) : Takes NotWhere
      (Language.arguments fuel function false >>= fun rest => pure (argument :: rest)) :=
    (all.arguments function false).map
  have starred : Takes NotWhere (do
      let starred ← if function = "COUNT" then Reader.acceptSymbol .asterisk else pure false
      let argument ← if starred then pure .star else Language.expression fuel 0
      let rest ← Language.arguments fuel function false
      return argument :: rest) := by
    have rest (starred : Bool) : Takes NotWhere (do
        let argument ← if starred then pure .star else Language.expression fuel 0
        let rest ← Language.arguments fuel function false
        return argument :: rest) :=
      .ite (Takes.pure.bind others) ((all.expression 0).bind others)
    exact .ite ((Takes.accept .symbol).bind rest) (Takes.pure.bind rest)
  rw [Language.arguments]
  exact (Takes.accept .symbol).bind fun _ => .ite .pure
    (.ite ((Takes.expect .symbol).bind fun _ => starred) starred)

theorem tests_succ (floor : Nat) (operand : Expression) :
    Takes NotWhere (Language.tests (fuel + 1) floor operand) := by
  have starts : ∀ token, startsTest token = true → NotWhere token := by
    rintro _ starts rfl
    cases starts
  rw [Language.tests]
  refine .ite ((Takes.takeIf starts).bind fun taken => ?_) .pure
  split
  · exact (all.test operand _).bind fun _ => all.tests floor _
  · exact .pure

theorem test_succ (operand : Expression) (token : Token) :
    Takes NotWhere (Language.test (fuel + 1) operand token) := by
  unfold Language.test
  split
  · exact (Takes.accept (.keyword (by decide))).bind fun _ =>
      (Takes.expect (.keyword (by decide))).map
  · refine .next (fun token fails cursor result => ?_) fun second => ?_
    · rw [notWhere_of_not fails]
      exact Reader.throw_ne_ok
    · split
      · exact (all.membership operand).map
      · exact (all.range operand).map
      · exact (all.expression comparisonPrecedence).map
      · exact .throw
  · exact all.membership operand
  · exact all.range operand

theorem membership_succ (operand : Expression) :
    Takes NotWhere (Language.membership (fuel + 1) operand) := by
  rw [Language.membership]
  exact (Takes.expect .symbol).bind fun _ => ((all.expression 0).separated .symbol).bind fun _ =>
    (Takes.expect .symbol).map

theorem range_succ (operand : Expression) : Takes NotWhere (Language.range (fuel + 1) operand) := by
  rw [Language.range]
  exact (all.expression comparisonPrecedence).bind fun _ =>
    (Takes.expect (.keyword (by decide))).bind fun _ => (all.expression comparisonPrecedence).map

theorem operations_succ (floor : Nat) (operand : Expression) :
    Takes NotWhere (Language.operations (fuel + 1) floor operand) := by
  rw [Language.operations]
  refine fun cursor => .glance ?_
  split
  · rename_i operator told
    obtain ⟨token, head, named⟩ := Option.bind_eq_some_iff.mp told
    have passes : NotWhere token := by
      rintro rfl
      cases named
    split
    · exact .next head passes
        ((all.expression (operator.precedence + 1)).bind fun _ => all.operations floor _)
    · exact Takes.pure cursor
  · exact Takes.pure cursor

theorem succ : TakesExpressions (fuel + 1) where
  expression floor := by
    rw [Language.expression]
    exact (all.signed floor).bind fun _ => (all.tests floor _).bind fun _ => all.operations floor _
  signed := all.signed_succ
  atom := all.atom_succ
  arguments := all.arguments_succ
  tests := all.tests_succ
  test := all.test_succ
  membership := all.membership_succ
  range := all.range_succ
  operations := all.operations_succ

end TakesExpressions

theorem takesExpressions (fuel : Nat) : TakesExpressions fuel := by
  induction fuel with
  | zero => exact .zero
  | succ fuel ih => exact ih.succ

theorem expressionAbove_takes (floor : Nat) : Takes NotWhere (expressionAbove floor) :=
  fun cursor _ _ ran => (takesExpressions (6 * cursor.tokens.length + 6)).expression floor cursor ran

theorem anyExpression_takes : Takes NotWhere anyExpression :=
  expressionAbove_takes 0

/-- The values that an update sets end before its condition. -/
theorem assignments_take : Takes NotWhere assignments := by
  have within (limit : Nat) (seen : List String) : Takes NotWhere (assignmentsWithin limit seen) := by
    induction limit generalizing seen with
    | zero =>
        rw [assignmentsWithin]
        exact (Takes.name fun _ => .identifier).bind fun _ => (Takes.expect .symbol).bind fun _ =>
          anyExpression_takes.bind fun _ => .ite (Takes.throw.bind fun _ => .pure) .pure
    | succ limit ih =>
        rw [assignmentsWithin]
        have others (column : String) (value : Expression) : Takes NotWhere (do
            if ← Reader.acceptSymbol .comma then
              let rest ← assignmentsWithin limit (column :: seen)
              return (column, value) :: rest
            else return [(column, value)]) :=
          (Takes.accept .symbol).bind fun _ => .ite (ih _).map .pure
        exact (Takes.name fun _ => .identifier).bind fun _ => (Takes.expect .symbol).bind fun _ =>
          anyExpression_takes.bind fun _ => .ite (Takes.throw.bind fun _ => others _ _) (others _ _)
  exact fun cursor _ _ ran => within cursor.tokens.length [] cursor ran

/-! ## Statements -/

namespace Advances

theorem next {following : Token → Reader β} (each : ∀ token, Advances (following token)) :
    Advances (Reader.next >>= following) :=
  Takes.next (fun _ fails => absurd trivial fails) each

theorem takeIf {test : Token → Bool} : Advances (Reader.takeIf test) :=
  Takes.takeIf fun _ _ => trivial

theorem accept : Advances (Reader.accept token) :=
  Takes.accept trivial

theorem expect : Advances (Reader.expect token) :=
  Takes.expect trivial

theorem name : Advances Reader.name :=
  Takes.name fun _ => trivial

theorem name? : Advances Reader.name? := by
  refine takeIf.bind fun _ => ?_
  split <;> exact .pure

theorem count : Advances Reader.count := by
  refine next fun _ => ?_
  split
  · split
    · exact .pure
    · exact .throw
  · exact .throw

theorem separated (items : Advances reader) : Advances (Reader.separated reader) :=
  Takes.separated items trivial

theorem names : Advances Reader.names :=
  expect.bind fun _ => accept.bind fun _ => .ite .pure ((separated name).bind fun _ => expect.map)

end Advances

theorem anyExpression_advances : Advances anyExpression :=
  anyExpression_takes.advances

theorem asName?_advances : Advances asName? :=
  Advances.accept.bind fun _ => .ite Advances.name.map Advances.name?

theorem selectItem_advances : Advances selectItem := by
  refine Advances.accept.bind fun _ => .ite .pure (anyExpression_advances.bind fun _ => ?_)
  split
  · exact .pure
  · exact asName?_advances.map

theorem tableReference_advances : Advances tableReference :=
  Advances.name.bind fun _ => asName?_advances.map

theorem conditionAfter_advances {keyword : Keyword} : Advances (conditionAfter keyword) :=
  Advances.accept.bind fun _ => .ite anyExpression_advances.map .pure

theorem joins_advance : Advances joins := by
  have words (kind : JoinKind) (token : Token) : Advances (joinWords kind token) := by
    unfold joinWords
    split
    · exact .pure
    · exact .pure
    · exact .ite (Advances.accept.bind fun _ => Advances.expect) Advances.expect
  have within (limit : Nat) : Advances (joinsWithin limit) := by
    induction limit with
    | zero => exact .pure
    | succ limit ih =>
        rw [joinsWithin]
        refine Takes.peek.bind fun _ => ?_
        split
        · exact .pure
        · refine Advances.next fun _ => (words _ _).bind fun _ => tableReference_advances.bind fun _ => ?_
          refine .ite (Takes.pure.bind fun _ => ih.map) (Advances.expect.bind fun _ => ?_)
          exact anyExpression_advances.bind fun _ => Takes.pure.bind fun _ => ih.map
  exact fun cursor _ _ ran => within (cursor.tokens.length + 1) cursor ran

theorem orderTerm_advances : Advances orderTerm :=
  anyExpression_advances.bind fun _ => Advances.takeIf.map

theorem listAfter_advances {first second : Keyword} (items : Advances reader) :
    Advances (listAfter first second reader) :=
  Advances.accept.bind fun _ => .ite (Advances.expect.bind fun _ => Advances.separated items) .pure

theorem bounds_advance : Advances bounds := by
  have offset (limit early : Option Nat) : Advances (do
      if ← Reader.acceptWord .offset then
        let offset ← Reader.count
        return (limit, some offset)
      else return (limit, early)) :=
    Advances.accept.bind fun _ => .ite Advances.count.map .pure
  refine Advances.accept.bind fun _ => .ite ?_ (Takes.pure.bind fun _ => offset _ _)
  refine Advances.count.bind fun _ => Advances.accept.bind fun _ => .ite ?_ ?_
  · exact Advances.count.bind fun _ => Takes.pure.bind fun _ => offset _ _
  · exact Takes.pure.bind fun _ => offset _ _

theorem clauses_advance {distinct : Bool} {items : List SelectItem}
    {source : Option TableReference} {joins : List Join} :
    Advances (do
      let condition ← conditionAfter .«where»
      let grouping ← listAfter .group .«by» anyExpression
      let having ← conditionAfter .having
      let ordering ← listAfter .order .«by» orderTerm
      let (limit, offset) ← bounds
      return ({ distinct, items, source, joins, condition, grouping, having, ordering, limit
                offset } : Select)) :=
  conditionAfter_advances.bind fun _ => (listAfter_advances anyExpression_advances).bind fun _ =>
    conditionAfter_advances.bind fun _ => (listAfter_advances orderTerm_advances).bind fun _ =>
    bounds_advance.map

theorem selection_advances {distinct : Bool} :
    Advances (do
      let items ← Reader.separated selectItem
      let (source, joins) ←
        if ← Reader.acceptWord .«from» then do
          let first ← tableReference
          let others ← joins
          pure (some first, others)
        else pure (none, [])
      let condition ← conditionAfter .«where»
      let grouping ← listAfter .group .«by» anyExpression
      let having ← conditionAfter .having
      let ordering ← listAfter .order .«by» orderTerm
      let (limit, offset) ← bounds
      return ({ distinct, items, source, joins, condition, grouping, having, ordering, limit
                offset } : Select)) := by
  refine (Advances.separated selectItem_advances).bind fun _ => Advances.accept.bind fun _ => ?_
  refine .ite ?_ (Takes.pure.bind fun _ => clauses_advance)
  exact tableReference_advances.bind fun _ => joins_advance.bind fun _ => Takes.pure.bind fun _ =>
    clauses_advance

theorem select_advances : Advances select :=
  Advances.expect.bind fun _ => Advances.accept.bind fun _ =>
    .ite (Advances.accept.bind fun _ => selection_advances) selection_advances

/-! ## Changes -/

theorem resolution?_advances : Advances resolution? := by
  refine Advances.accept.bind fun _ => .ite (Advances.next fun _ => ?_) .pure
  split
  · exact .pure
  · exact .throw

theorem insert_advances : Advances insert := by
  have row : Advances valuesRow :=
    Advances.expect.bind fun _ => (Advances.separated anyExpression_advances).bind fun _ =>
      Advances.expect.map
  have source : Advances insertSource :=
    Takes.peek.bind fun _ => .ite select_advances.map
      (Advances.expect.bind fun _ => (Advances.separated row).map)
  have rest (resolution : Option Resolution) (table : String) (columns : Option (List String)) :
      Advances (do
        let source ← insertSource
        return ({ resolution, table, columns, source } : Insert)) := source.map
  exact Advances.expect.bind fun _ => resolution?_advances.bind fun _ => Advances.expect.bind fun _ =>
    Advances.name.bind fun _ => Takes.peek.bind fun _ =>
      .ite (Advances.names.bind fun _ => Takes.pure.bind fun _ => rest _ _ _)
        (Takes.pure.bind fun _ => rest _ _ _)

theorem update_advances : Advances update :=
  Advances.expect.bind fun _ => resolution?_advances.bind fun _ => Advances.name.bind fun _ =>
    Advances.expect.bind fun _ => assignments_take.advances.bind fun _ => conditionAfter_advances.map

theorem delete_advances : Advances delete :=
  Advances.expect.bind fun _ => Advances.expect.bind fun _ => Advances.name.bind fun _ =>
    conditionAfter_advances.map

/-! ## Definitions -/

theorem typeLength_advances :
    Advances (do
      match ← Reader.next with
      | .number text => return text
      | token => throw (.expectedNumber token)) := by
  refine Advances.next fun _ => ?_
  split
  · exact .pure
  · exact .throw

theorem columnType_advances : Advances columnType := by
  have modifiers : Advances typeModifiers :=
    Advances.accept.bind fun _ =>
      .ite ((Advances.separated typeLength_advances).bind fun _ => Advances.expect) .pure
  refine Advances.name?.bind fun _ => ?_
  split
  · exact .pure
  · split
    · exact .throw
    · exact modifiers.map

theorem columnOption_advances {column : ColumnDefinition} {keyword : Keyword} :
    Advances (columnOption column keyword) := by
  have reference : Advances reference :=
    Advances.name.bind fun _ => Advances.accept.bind fun _ =>
      .ite (Advances.name.bind fun _ => Advances.expect.map) .pure
  unfold columnOption
  split
  · exact Advances.expect.bind fun _ => Advances.takeIf.map
  · exact .pure
  · exact .ite .throw .pure
  · exact Advances.expect.bind fun _ => .ite .throw .pure
  · exact (expressionAbove_takes _).advances.map
  · exact .pure
  · exact reference.map
  · exact .throw

theorem columnDefinition_advances : Advances columnDefinition := by
  have within (limit : Nat) (column : ColumnDefinition) :
      Advances (columnOptionsWithin limit column) := by
    induction limit generalizing column with
    | zero => exact .pure
    | succ limit ih =>
        rw [columnOptionsWithin]
        refine Advances.takeIf.bind fun _ => ?_
        split
        · exact columnOption_advances.bind fun _ => ih _
        · exact .pure
  exact Advances.name.bind fun name => columnType_advances.bind fun type cursor _ _ ran =>
    within cursor.tokens.length _ cursor ran

theorem tableColumns_advance : Advances tableColumns := by
  have element (columns : List ColumnDefinition) : Advances (tableElement columns) := by
    refine Takes.peek.bind fun _ => ?_
    split
    · refine Advances.next fun _ => Advances.expect.bind fun _ => Advances.names.bind fun _ => ?_
      split
      · exact .lift
      · exact .throw
    · exact Advances.next fun _ => Advances.names.bind fun _ => .foldlM fun _ _ => .lift
    · exact columnDefinition_advances.map
  have within (limit : Nat) (columns : List ColumnDefinition) :
      Advances (tableElementsWithin limit columns) := by
    induction limit generalizing columns with
    | zero => exact element columns
    | succ limit ih => exact (element columns).bind fun _ => Advances.accept.bind fun _ => .ite (ih _) .pure
  refine Advances.expect.bind fun _ => Advances.accept.bind fun _ => .ite .pure ?_
  have elements : Advances (fun cursor => tableElementsWithin cursor.tokens.length [] cursor) :=
    fun cursor _ _ ran => within cursor.tokens.length [] cursor ran
  exact elements.bind fun _ => Advances.expect.map

theorem remainingText_advances : Advances remainingText := by
  intro cursor text after ran
  rw [remainingText] at ran
  split at ran
  · cases ran
  · cases ran
    exact ⟨rfl, cursor.tokens, (List.append_nil _).symm, fun _ _ => trivial⟩

theorem create_advances : Advances create := by
  have ifNotExists : Advances ifNotExists :=
    Advances.accept.bind fun _ =>
      .ite (Advances.expect.bind fun _ => Advances.expect.map) .pure
  have definition (unique : Bool) (kind : ObjectKind) : Advances (definition unique kind) := by
    cases kind with
    | table => exact tableColumns_advance.map
    | index =>
        exact Advances.expect.bind fun _ => Advances.name.bind fun _ => Advances.names.map
    | view => exact Advances.expect.bind fun _ => select_advances.map
    | trigger => exact remainingText_advances.map
  have rest (temporary unique : Bool) (kind : ObjectKind) : Advances (do
      let ifNotExists ← Language.ifNotExists
      let name ← Reader.name
      let definition ← Language.definition unique kind
      return ({ name, ifNotExists, temporary, definition } : Create)) :=
    ifNotExists.bind fun _ => Advances.name.bind fun _ => (definition unique kind).map
  exact Advances.takeIf.bind fun _ => Advances.accept.bind fun _ => Advances.next fun _ =>
    Takes.lift.bind fun _ => .ite (Takes.throw.bind fun _ => rest _ _ _) (rest _ _ _)

theorem drop_advances : Advances drop := by
  have ifExists : Advances ifExists :=
    Advances.accept.bind fun _ => .ite Advances.expect.map .pure
  exact Advances.next fun _ => Takes.lift.bind fun _ => ifExists.bind fun _ => Advances.name.map

theorem alter_advances : Advances alter := by
  have action : Advances alterAction := by
    refine Advances.next fun _ => ?_
    split
    · exact Advances.accept.bind fun _ => columnDefinition_advances.map
    · refine Advances.accept.bind fun _ => .ite Advances.name.map ?_
      exact Advances.accept.bind fun _ => Advances.name.bind fun _ => Advances.expect.bind fun _ =>
        Advances.name.map
    · exact .throw
  exact Advances.expect.bind fun _ => Advances.name.bind fun _ => action.map

/-! ## Whole statements -/

theorem privilegeChange_advances {preposition : Keyword} :
    Advances (privilegeChange preposition) := by
  have single : Advances privilege := by
    refine Advances.next fun _ => ?_
    split
    · split
      · exact .pure
      · exact .throw
    · exact .throw
  have privileges : Advances privileges :=
    Advances.accept.bind fun _ => .ite Advances.accept.map (Advances.separated single).map
  have rest (privileges : Privileges) (table : Option String) : Advances (do
      Reader.expectWord preposition
      let grantee ← Reader.name
      return ({ privileges, table, grantee } : Privilege)) :=
    Advances.expect.bind fun _ => Advances.name.map
  refine privileges.bind fun _ => Advances.accept.bind fun _ => .ite ?_ (Takes.pure.bind fun _ => rest _ _)
  exact Advances.accept.bind fun _ => Advances.name.bind fun _ => Takes.pure.bind fun _ => rest _ _

theorem statementOf_advances {type : StatementType} : Advances (statementOf type) := by
  have mode : Advances beginMode := by
    refine Advances.name?.bind fun _ => ?_
    split
    · exact .pure
    · exact .ite .pure .throw
  cases type with
  | select => exact select_advances.map
  | insert => exact insert_advances.map
  | update => exact update_advances.map
  | delete => exact delete_advances.map
  | create => exact Advances.next fun _ => create_advances.map
  | drop => exact Advances.next fun _ => drop_advances.map
  | alter => exact Advances.next fun _ => alter_advances.map
  | grant => exact Advances.next fun _ => privilegeChange_advances.map
  | revoke => exact Advances.next fun _ => privilegeChange_advances.map
  | begin => exact Advances.next fun _ => mode.bind fun _ => Advances.accept.map
  | commit => exact Advances.next fun _ => Advances.accept.map
  | rollback => exact Advances.next fun _ => Advances.accept.map

theorem statement_advances : Advances statement := by
  refine Takes.peek.bind fun _ => ?_
  split
  · exact .throw
  · exact Takes.lift.bind fun _ => statementOf_advances

theorem tokens_of_ended {value : Unit} {after : Cursor}
    (read : Reader.ended cursor = .ok (value, after)) : cursor.tokens = [] := by
  obtain ⟨seen, middle, peeked, read⟩ := Reader.bind_eq_ok_iff.mp read
  obtain ⟨head, rfl⟩ := Reader.peek_eq_ok peeked
  cases seen with
  | some token => exact absurd read Reader.throw_ne_ok
  | none => exact List.head?_eq_none_iff.mp head

/-- All that may follow a statement is a semicolon. -/
theorem closing_eq_ok {given found : Statement} {after : Cursor}
    (read : closing given cursor = .ok (found, after)) :
    given = found ∧ (cursor.tokens = [] ∨ cursor.tokens = [.symbol .semicolon]) ∧
      cursor.fault = none ∧ cursor.parameters = after.parameters := by
  obtain ⟨-, same⟩ := fault_of_closing read
  obtain ⟨accepted, middle, taken, read⟩ := Reader.bind_eq_ok_iff.mp read
  obtain ⟨_, last, finished, made⟩ := Reader.bind_eq_ok_iff.mp read
  obtain ⟨-, rfl⟩ := Reader.pure_eq_ok_iff.mp made
  have none := tokens_of_ended finished
  obtain ⟨clean, rfl⟩ := ended_eq_ok finished
  obtain ⟨tokens, fault, count⟩ := cursor
  by_cases marked : Stops (· == Token.symbol .semicolon) tokens
  · rw [Reader.acceptSymbol, Reader.accept_stops marked] at taken
    cases taken
    exact ⟨same, .inl none, clean, rfl⟩
  · obtain ⟨_, rest, rfl, mark⟩ := exists_of_not_stops marked
    obtain rfl := beq_iff_eq.mp mark
    rw [Reader.acceptSymbol, Reader.accept_cons] at taken
    cases taken
    exact ⟨same, .inr (congrArg _ none), clean, rfl⟩

/-- A statement takes all tokens of its text but a semicolon at the end, and no fault stands
behind them. -/
theorem parseStatement_ends {text : String} {found : Statement} {count : Nat}
    (read : parseStatement text = .ok (found, count)) :
    (tokensOf text).fault = none ∧
      ∃ middle, statement (.ofText text) = .ok (found, middle) ∧ middle.parameters = count ∧
        (middle.tokens = [] ∨ middle.tokens = [.symbol .semicolon]) := by
  rw [parseStatement] at read
  split at read
  · rename_i first last ran
    obtain ⟨rfl, rfl⟩ : first = found ∧ last.parameters = count := by simpa using read
    obtain ⟨other, middle, stated, closed⟩ := Reader.bind_eq_ok_iff.mp ran
    obtain ⟨rfl, tokens, clean, count⟩ := closing_eq_ok closed
    obtain ⟨same, -⟩ := statement_advances _ stated
    exact ⟨same.symm.trans clean, middle, stated, count, tokens⟩
  · cases read

end Coffer.Language
