import Coffer.Proofs.FoundQuery

namespace Coffer

/-! # Queries that read back as they are written

A name in ASCII is written so that it reads back, but the name of a function is written
without quotes, and the upper bound of a range without parentheses around the range. What
remains to be seen of an expression is whether these two get in the way.
-/

namespace Text

variable {c : Char} {text : String}

/-- What is in upper case already stays as it is. -/
theorem upperCharacter_twice (ascii : isAscii c = true) :
    (upperCharacter c).flatMap upperCharacter = upperCharacter c := by
  have each : ∀ code < 128, (upperCharacter (.ofNat code)).flatMap upperCharacter =
      upperCharacter (.ofNat code) := by decide +kernel
  have same := each c.toNat (of_decide_eq_true ascii)
  rwa [Char.ofNat_toNat] at same

theorem upperCase_upperCase (ascii : text.toList.all isAscii = true) :
    upperCase (upperCase text) = upperCase text := by
  rw [upperCase, upperCase, String.toList_ofList, List.flatMap_assoc]
  exact congrArg _ (List.flatMap_congr fun c member =>
    upperCharacter_twice (List.all_eq_true.mp ascii c member))

end Text

namespace Language

variable {name : String} {mark : Mark} {marks others : List Mark} {expression : Expression}
variable {select : Select}

/-! ## Names -/

/-- Whether a token is no name, or a name in ASCII. -/
def Token.isAscii : Token → Bool
  | .identifier name => name.toList.all Text.isAscii
  | _ => true

theorem isPlainWord_of_bare (ascii : (Token.identifier name).isAscii = true)
    (bare : isBareName name = true) : isPlainWord name = true := by
  rw [isBareName] at bare
  split at bare
  · cases bare
  · rename_i first others characters
    simp only [Token.isAscii, characters, List.all_cons, Bool.and_eq_true, List.all_eq_true] at ascii
    simp only [Bool.and_eq_true, List.all_eq_true] at bare
    obtain ⟨⟨start, parts⟩, free⟩ := bare
    have word : others.all isWordPart = true := by
      refine List.all_eq_true.mpr fun c member => ?_
      have part := parts c member
      simpa [Text.isWordCharacter, isWordPart, Text.isAlphanumeric, Text.isAlphabetic,
        Text.isNumeral, ascii.2 c member] using part
    have head : isWordStart first = true := by
      simpa [isWordStart, Text.isAlphabetic, ascii.1] using start
    rw [isPlainWord, characters]
    simp only [head, word, free, Bool.and_self]

/-- A name in ASCII, or the star of all columns, reads back. -/
theorem isLegible_name (named : name = "*" ∨ (Token.identifier name).isAscii = true) :
    (Mark.name name).isLegible = true := by
  rcases named with rfl | ascii
  · decide
  · change (!isBareName name || isPlainWord name) = true
    cases bare : isBareName name with
    | false => rfl
    | true => exact isPlainWord_of_bare ascii bare

/-! ## Marks -/

/-- Marks that read back in the form in which they are written. -/
def Legible (marks : List Mark) : Prop :=
  ∀ mark ∈ marks, mark.isLegible = true

@[simp] theorem legible_nil : Legible [] := nofun

@[simp] theorem legible_cons :
    Legible (mark :: marks) ↔ mark.isLegible = true ∧ Legible marks :=
  List.forall_mem_cons

@[simp] theorem legible_append : Legible (marks ++ others) ↔ Legible marks ∧ Legible others :=
  List.forall_mem_append

theorem legible_flatMap {α : Type} {items : List α} {shown : α → List Mark} :
    Legible (items.flatMap shown) ↔ ∀ item ∈ items, Legible (shown item) :=
  List.forall_mem_flatMap

@[simp] theorem isLegible_space : Mark.isLegible .space = true := rfl

@[simp] theorem isLegible_word {word : Keyword} : (Mark.word word).isLegible = true := rfl

@[simp] theorem isLegible_symbol {symbol : Symbol} : (Mark.symbol symbol).isLegible = true := rfl

@[simp] theorem isLegible_number {text : String} :
    (Mark.token (.number text)).isLegible = true := rfl

@[simp] theorem isLegible_operator {operator : Operator} :
    (Mark.token operator.token).isLegible = true := by
  cases operator <;> rfl

@[simp] theorem legible_clause {words : List Keyword} : Legible (Mark.clause words) :=
  legible_flatMap.mpr fun _ _ => by simp

@[simp] theorem legible_parenthesized : Legible (Mark.parenthesized marks) ↔ Legible marks := by
  simp [Mark.parenthesized]

@[simp] theorem legible_guarded {place : Nat} :
    Legible (expression.guarded marks place) ↔ Legible marks := by
  rw [Expression.guarded]
  split <;> simp

theorem legible_separated {α : Type} {items : List α} {shown : α → List Mark} :
    Legible (Mark.separated (items.map shown)) ↔ ∀ item ∈ items, Legible (shown item) := by
  cases items with
  | nil => simp [Mark.separated]
  | cons first rest => simp [Mark.separated, List.flatMap_map, legible_flatMap]

theorem legible_signedNumber {negative : Bool} {text : String} :
    Legible (signedNumber negative text) := by
  cases negative <;> simp [signedNumber]

theorem legible_literal {value : Literal} (finite : ∀ x, value = .real x → x.isFinite = true) :
    Legible value.marks := by
  cases value with
  | null => simp [Literal.marks]
  | boolean truth => cases truth <;> simp [Literal.marks]
  | integer number => exact legible_signedNumber
  | real number =>
      obtain ⟨digits, fraction, -, -, form⟩ := realMarks_finite (finite number rfl)
      rw [Literal.marks, form]
      exact legible_signedNumber
  | string content => exact legible_cons.mpr ⟨rfl, legible_nil⟩

/-! ## Expressions -/

namespace Expression

/-- Whether an expression itself, apart from its parts, reads back as it is written: a
function is called by a word, and no order comparison follows a range. -/
def isIntact : Expression → Bool
  | .binary operator (.between ..) _ => operator.precedence != 5
  | .call function _ => isPlainWord function
  | _ => true

/-- An expression all parts of which read back as they are written. -/
def Intact (expression : Expression) : Prop :=
  ∀ part ∈ expression.parts, part.isIntact = true

section Parts

variable {property : Expression → Prop} {operator : Operator} {function : String}
variable {left right operand low high : Expression} {arguments items : List Expression}

theorem mem_parts (expression : Expression) : expression ∈ expression.parts := by
  cases expression <;> exact List.mem_cons_self

theorem forall_parts_call :
    (∀ part ∈ (call function arguments).parts, property part) ↔
      property (.call function arguments) ∧
        ∀ argument ∈ arguments, ∀ part ∈ argument.parts, property part := by
  rw [parts, List.forall_mem_cons, partsOfList_eq, List.forall_mem_flatMap]

theorem forall_parts_binary :
    (∀ part ∈ (binary operator left right).parts, property part) ↔
      property (.binary operator left right) ∧
        (∀ part ∈ left.parts, property part) ∧ ∀ part ∈ right.parts, property part := by
  rw [parts, List.forall_mem_cons, List.forall_mem_append]

theorem forall_parts_not :
    (∀ part ∈ (not operand).parts, property part) ↔
      property (.not operand) ∧ ∀ part ∈ operand.parts, property part := by
  rw [parts, List.forall_mem_cons]

theorem forall_parts_isNull :
    (∀ part ∈ (isNull operand).parts, property part) ↔
      property (.isNull operand) ∧ ∀ part ∈ operand.parts, property part := by
  rw [parts, List.forall_mem_cons]

theorem forall_parts_isIn :
    (∀ part ∈ (isIn operand items).parts, property part) ↔
      property (.isIn operand items) ∧ (∀ part ∈ operand.parts, property part) ∧
        ∀ item ∈ items, ∀ part ∈ item.parts, property part := by
  rw [parts, List.forall_mem_cons, List.forall_mem_append, partsOfList_eq,
    List.forall_mem_flatMap]

theorem forall_parts_between :
    (∀ part ∈ (between operand low high).parts, property part) ↔
      property (.between operand low high) ∧ (∀ part ∈ operand.parts, property part) ∧
        (∀ part ∈ low.parts, property part) ∧ ∀ part ∈ high.parts, property part := by
  rw [parts, List.forall_mem_cons, List.forall_mem_append, List.forall_mem_append]

end Parts

/-- An expression with names in ASCII that reads back as it is written. -/
structure Clear (expression : Expression) : Prop where
  found : expression.Found (fun token => token.isAscii = true)
  intact : expression.Intact

/-- The function of a call goes by the upper case of a name, so that reading it once more
changes nothing. -/
theorem Clear.isSetOff (clear : expression.Clear) :
    ∀ part ∈ expression.parts, part.isSetOff = true := by
  intro part member
  have intact := clear.intact part member
  have named := clear.found.named part member
  cases part with
  | call function arguments =>
      obtain ⟨name, ascii, rfl⟩ := named
      exact beq_iff_eq.mpr (Text.upperCase_upperCase ascii)
  | binary operator left right => cases left <;> exact intact
  | _ => rfl

theorem Clear.faithful (clear : expression.Clear) : expression.Faithful :=
  ⟨clear.found.readable, clear.isSetOff⟩

theorem legible_of_readable (readable : expression.Readable)
    (held : ∀ part ∈ expression.parts,
      part.Named (fun token => token.isAscii = true) ∧ part.isIntact = true) :
    Legible expression.marks := by
  induction readable with
  | @field relation name =>
      obtain ⟨qualifier, named⟩ := (held _ (mem_parts _)).1
      cases relation with
      | none => simpa [marks] using isLegible_name named
      | some relation =>
          have qualified := isLegible_name (.inr (qualifier relation rfl))
          simpa [marks] using ⟨qualified, isLegible_name named⟩
  | literal finite => exact legible_literal finite
  | parameter => simp [marks]
  | @call function arguments starred all ih =>
      obtain ⟨⟨-, word⟩, within⟩ := forall_parts_call.mp held
      rw [marks, marksOfList_eq, legible_cons, legible_parenthesized, legible_separated]
      refine ⟨word, fun argument member => ?_⟩
      by_cases star : argument = .star
      · simp [star, marks]
      · exact ih argument member star (within argument member)
  | binary first second leftLegible rightLegible =>
      obtain ⟨-, left, right⟩ := forall_parts_binary.mp held
      simpa [marks] using ⟨leftLegible left, rightLegible right⟩
  | not only ih => simpa [marks] using ih (forall_parts_not.mp held).2
  | isNull only ih => simpa [marks] using ih (forall_parts_isNull.mp held).2
  | isIn first nonempty all ih others =>
      obtain ⟨-, operand, items⟩ := forall_parts_isIn.mp held
      simpa [marks, marksOfList_eq, legible_separated] using
        ⟨ih operand, fun item member => others item member (items item member)⟩
  | between first second third ih lowIh highIh =>
      obtain ⟨-, operand, low, high⟩ := forall_parts_between.mp held
      simpa [marks] using ⟨ih operand, lowIh low, highIh high⟩

theorem Clear.legible (clear : expression.Clear) : Legible expression.marks :=
  legible_of_readable clear.found.readable fun part member =>
    ⟨clear.found.named part member, clear.intact part member⟩

end Expression

/-! ## Queries -/

theorem legible_optional {words : List Keyword} {condition : Option Expression}
    (clear : ∀ found ∈ condition.toList, found.Clear) :
    Legible (optionalClause words condition) := by
  cases condition with
  | none => exact legible_nil
  | some found =>
      have legible := (clear found (by simp)).legible
      simpa [optionalClause] using legible

theorem legible_count {word : Keyword} {count : Option Nat} :
    Legible (countClause word count) := by
  cases count <;> simp [countClause]

theorem legible_named {words : List Keyword} (ascii : (Token.identifier name).isAscii = true) :
    Legible (Mark.clause words ++ [.space, .name name]) := by
  simpa using isLegible_name (.inr ascii)

theorem legible_tableReference {reference : TableReference}
    (named : reference.Named fun token => token.isAscii = true) : Legible reference.marks := by
  obtain ⟨table, renamed⟩ := named
  rw [TableReference.marks, legible_cons]
  refine ⟨isLegible_name (.inr table), ?_⟩
  split
  · exact legible_nil
  · rename_i asName shown
    exact legible_named (renamed asName shown)

theorem legible_selectItem {item : SelectItem}
    (named : item.Named fun token => token.isAscii = true)
    (clear : ∀ expression ∈ item.expressions, expression.Clear) : Legible item.marks := by
  cases item with
  | every => simp [SelectItem.marks]
  | everyOf relation => simpa [SelectItem.marks] using isLegible_name (.inr named)
  | expression value asName =>
      have legible := (clear value (List.mem_singleton.mpr rfl)).legible
      cases asName with
      | none => exact legible
      | some asName => exact legible_append.mpr ⟨legible, legible_named (named asName rfl)⟩

theorem legible_join {join : Join} (named : join.table.Named fun token => token.isAscii = true)
    (clear : ∀ condition ∈ join.condition.toList, condition.Clear) : Legible join.marks := by
  simpa [Join.marks] using ⟨legible_tableReference named, legible_optional clear⟩

theorem legible_select (found : select.Found fun token => token.isAscii = true)
    (clear : ∀ expression ∈ select.expressions, expression.Clear) : Legible select.marks := by
  simp only [Select.expressions, List.forall_mem_append, List.forall_mem_flatMap,
    List.forall_mem_map] at clear
  obtain ⟨inItems, inJoins, inCondition, inGrouping, inHaving, inOrdering⟩ := clear
  have items : Legible (Mark.separated (select.items.map SelectItem.marks)) :=
    legible_separated.mpr fun item member =>
      legible_selectItem (found.items item member) (inItems item member)
  have joins : Legible (select.joins.flatMap Join.marks) := legible_flatMap.mpr fun join member =>
    legible_join (found.joins join member) (inJoins join member)
  have grouping : Legible (Mark.separated (select.grouping.map Expression.marks)) :=
    legible_separated.mpr fun key member => (inGrouping key member).legible
  have ordering : Legible (Mark.separated (select.ordering.map OrderTerm.marks)) := by
    refine legible_separated.mpr fun term member => legible_append.mpr
      ⟨(inOrdering term member).legible, ?_⟩
    split <;> simp
  simp only [Select.marks, legible_cons, legible_append, and_assoc]
  refine ⟨rfl, ?_, rfl, items, ?_, joins, legible_optional inCondition, ?_,
    legible_optional inHaving, ?_, legible_count, legible_count⟩
  · split <;> simp
  · cases shown : select.source with
    | none => exact legible_nil
    | some source => simpa using legible_tableReference (found.source source shown)
  · split
    · exact legible_nil
    · simpa using grouping
  · split
    · exact legible_nil
    · simpa using ordering

/-! ## Changes of rows -/

theorem legible_resolution {resolution : Option Resolution} :
    Legible (resolutionMarks resolution) := by
  cases resolution with
  | none => exact legible_nil
  | some resolution =>
      have word : (Mark.token resolution.token).isLegible = true := by
        cases resolution <;> decide +kernel
      simpa [resolutionMarks] using word

theorem legible_names {names : List String}
    (ascii : ∀ name ∈ names, (Token.identifier name).isAscii = true) :
    Legible (Mark.names names) := by
  rw [Mark.names, legible_parenthesized, legible_separated]
  exact fun name member => legible_cons.mpr ⟨isLegible_name (.inr (ascii name member)), legible_nil⟩

theorem legible_values {rows : List (List Expression)}
    (clear : ∀ row ∈ rows, ∀ expression ∈ row, expression.Clear) :
    Legible (InsertSource.values rows).marks := by
  have listed : Legible (Mark.separated (rows.map fun row =>
      Mark.parenthesized (Mark.separated (row.map Expression.marks)))) := by
    refine legible_separated.mpr fun row member => legible_parenthesized.mpr ?_
    exact legible_separated.mpr fun expression within => (clear row member expression within).legible
  simpa [InsertSource.marks] using listed

theorem legible_insert {insert : Insert} (table : (Token.identifier insert.table).isAscii = true)
    (columns : ∀ names ∈ insert.columns, ∀ name ∈ names, (Token.identifier name).isAscii = true)
    (source : Legible insert.source.marks) : Legible insert.marks := by
  have named := isLegible_name (.inr table)
  simp only [Insert.marks, legible_cons, legible_append, and_assoc]
  refine ⟨rfl, legible_resolution, legible_clause, rfl, named, legible_nil, ?_, source⟩
  split
  · exact legible_nil
  · rename_i names shown
    exact legible_cons.mpr ⟨rfl, legible_names (columns names shown)⟩

theorem legible_update {update : Update} (table : (Token.identifier update.table).isAscii = true)
    (assigned : ∀ assignment ∈ update.assignments,
      (Token.identifier assignment.1).isAscii = true ∧ assignment.2.Clear)
    (condition : ∀ expression ∈ update.condition.toList, expression.Clear) :
    Legible update.marks := by
  have named := isLegible_name (.inr table)
  have listed : Legible (Mark.separated (update.assignments.map fun assignment =>
      [.name assignment.1, .space, .symbol .equal, .space] ++ assignment.2.marks)) := by
    refine legible_separated.mpr fun assignment member => ?_
    obtain ⟨ascii, clear⟩ := assigned assignment member
    simpa using ⟨isLegible_name (.inr ascii), clear.legible⟩
  simp only [Update.marks, legible_cons, legible_append, and_assoc]
  exact ⟨rfl, legible_resolution, rfl, named, legible_nil, legible_clause, rfl, listed,
    legible_optional condition⟩

theorem legible_delete {delete : Delete} (table : (Token.identifier delete.table).isAscii = true)
    (condition : ∀ expression ∈ delete.condition.toList, expression.Clear) :
    Legible delete.marks := by
  have named := isLegible_name (.inr table)
  simp only [Delete.marks, legible_cons, legible_append, and_assoc]
  exact ⟨rfl, legible_clause, rfl, named, legible_nil, legible_optional condition⟩

end Language

end Coffer
