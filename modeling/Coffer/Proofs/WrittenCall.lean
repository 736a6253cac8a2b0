import Coffer.Proofs.Planned
import Coffer.Proofs.Spacing

namespace Coffer.Language

/-! # Calls as they are written

An operand without parts can be read off the text it is written as, and so can a call of an
aggregate on one. Only placeholders lose their numbers: they are all written alike.
-/

variable {first second argument : Expression} {function name : String} {rest : List Char}
variable {value : Literal} {c : Char}

/-! ## Names -/

/-- The name at the head of a text, and the text after it. -/
def readName? : List Char → Option (String × List Char)
  | [] => none
  | c :: rest =>
    if c = '\x22' then (quoted? c rest).map fun found => (String.ofList found.1, found.2)
    else
      some (String.ofList ((c :: rest).takeWhile Text.isWordCharacter),
        (c :: rest).dropWhile Text.isWordCharacter)

/-- Whether a character can be the first one of a written name. -/
def startsName (c : Char) : Bool :=
  Text.isLatinLetter c || c == '_' || c == '\x22'

theorem isAscii_of_startsName (start : startsName c = true) : Text.isAscii c = true := by
  simp only [startsName, Text.isLatinLetter, Bool.or_eq_true, Bool.and_eq_true, decide_eq_true_eq,
    beq_iff_eq] at start
  rcases start with (letter | rfl) | rfl
  · simp only [Text.isAscii, decide_eq_true_eq]
    omega
  · rfl
  · rfl

theorem ne_of_startsName {other : Char} (start : startsName c = true)
    (none : startsName other = false) : c ≠ other :=
  fun same => by simp [← same, start] at none

theorem not_isDigit_of_startsName (start : startsName c = true) : Text.isDigit c = false := by
  by_contra digit
  simp only [Text.isDigit, Bool.not_eq_false, Bool.and_eq_true, decide_eq_true_eq] at digit
  simp only [startsName, Text.isLatinLetter, Bool.or_eq_true, Bool.and_eq_true, decide_eq_true_eq,
    beq_iff_eq] at start
  rcases start with (letter | rfl) | rfl
  · omega
  · simp at digit
  · simp at digit

/-- A name is written as a word, or between quotes. -/
theorem nameText_cases (name : String) :
    (∃ c others, name.toList = c :: others ∧ nameText name = name ∧ c ≠ '\x22' ∧
      startsName c = true ∧ ∀ part ∈ c :: others, Text.isWordCharacter part = true) ∨
    (nameText name).toList = quotedText '\x22' name := by
  rw [nameText]
  split
  · rename_i bare
    refine .inl ?_
    rw [isBareName] at bare
    split at bare
    · cases bare
    · rename_i c others characters
      simp only [Bool.and_eq_true, List.all_eq_true] at bare
      obtain ⟨⟨start, parts⟩, -⟩ := bare
      have starts : startsName c = true := by rw [startsName, start, Bool.true_or]
      have first : Text.isWordCharacter c = true := by
        rw [Text.isWordCharacter, if_pos (isAscii_of_startsName starts), Bool.or_right_comm, start,
          Bool.true_or]
      have unquoted : c ≠ '\x22' := by
        rintro rfl
        cases start
      exact ⟨c, others, characters, rfl, unquoted, starts, List.forall_mem_cons.mpr ⟨first, parts⟩⟩
  · exact .inr (String.toList_ofList)

theorem readName?_nameText
    (stops : Stops (fun c => Text.isWordCharacter c || c == '\x22') rest) :
    readName? ((nameText name).toList ++ rest) = some (name, rest) := by
  obtain ⟨c, others, characters, same, unquoted, -, parts⟩ | quotes := nameText_cases name
  · have afterWord : Stops Text.isWordCharacter rest := fun c head =>
      (Bool.or_eq_false_iff.mp (stops c head)).1
    rw [same, characters, List.cons_append, readName?, if_neg unquoted, ← List.cons_append,
      takeWhile_run parts afterWord, dropWhile_run parts afterWord, ← characters,
      String.ofList_toList]
  · have afterQuote : Stops (· == '\x22') rest := fun c head =>
      (Bool.or_eq_false_iff.mp (stops c head)).2
    rw [quotes, quotedText, List.append_assoc, List.cons_append, readName?, if_pos rfl,
      List.singleton_append, quoted?_doubled afterQuote, Option.map_some, String.ofList_toList]

theorem nameText_starts (name : String) :
    ∃ c others, (nameText name).toList = c :: others ∧ startsName c = true := by
  obtain ⟨c, others, characters, same, -, start, -⟩ | quotes := nameText_cases name
  · exact ⟨c, others, by rw [same, characters], start⟩
  · exact ⟨'\x22', _, quotes, rfl⟩

/-! ## Operands -/

/-- The literals that are written as words. -/
def wordLiterals : List (String × Literal) :=
  [("NULL", .null), ("TRUE", .boolean true), ("FALSE", .boolean false)]

def readField? (text : List Char) : Option Expression := do
  let (name, rest) ← readName? text
  match rest with
  | [] => return .field none name
  | _ :: more => return .field (some name) (← readName? more).1

/-- The operand that a text is written for; a placeholder gets the number zero. -/
def readOperand? : List Char → Option Expression
  | [] => none
  | c :: rest =>
    if c = '?' then some (.parameter 0)
    else if c = '*' then some .star
    else if c = '\x27' then
      (quoted? c rest).map fun found => .literal (.string (String.ofList found.1))
    else if c = '-' then (numberLiteral true (String.ofList rest)).toOption.map .literal
    else if Text.isDigit c then
      (numberLiteral false (String.ofList (c :: rest))).toOption.map .literal
    else
      match wordLiterals.lookup (String.ofList (c :: rest)) with
      | some literal => some (.literal literal)
      | none => readField? (c :: rest)

/-- An operand without the number of a placeholder. -/
def Expression.unnumbered : Expression → Expression
  | .parameter _ => .parameter 0
  | expression => expression

theorem readOperand?_signedNumber {negative : Bool} {text : String}
    (plain : PlainNumber text.toList)
    (read : numberLiteral negative text = .ok value) :
    readOperand? (writtenMarks (signedNumber negative text)).toList = some (.literal value) := by
  rw [toList_writtenMarks]
  cases negative with
  | true =>
      have characters : writtenCharacters (signedNumber true text) = '-' :: text.toList := by
        simp [writtenCharacters, signedNumber, Mark.symbol, Mark.written, Token.written,
          Symbol.spelling]
      rw [characters, readOperand?, if_neg (by decide), if_neg (by decide), if_neg (by decide),
        if_pos rfl, String.ofList_toList, read]
      rfl
  | false =>
      have characters : writtenCharacters (signedNumber false text) = text.toList := by
        simp [writtenCharacters, signedNumber, Mark.written, Token.written]
      obtain ⟨c, others, form, digit⟩ := plain.leading
      have different : ∀ other, Text.isDigit other = false → c ≠ other := by
        rintro other none rfl
        exact Bool.false_ne_true (none.symm.trans digit)
      rw [characters, form, readOperand?, if_neg (different '?' rfl), if_neg (different '*' rfl),
        if_neg (different '\x27' rfl), if_neg (different '-' rfl), if_pos digit, ← form,
        String.ofList_toList, read]
      rfl

theorem readOperand?_literal (finite : ∀ x, value = .real x → x.isFinite = true) :
    readOperand? (Expression.literal value).render.toList = some (.literal value) := by
  rw [Expression.render, Expression.marks]
  cases value with
  | null => rfl
  | boolean truth => cases truth <;> rfl
  | integer number =>
      refine readOperand?_signedNumber ?_ (numberLiteral_integer number)
      rw [String.toList_ofList]
      exact plainNumber_digitsOf
  | real x =>
      obtain ⟨digits, fraction, pointed, same, form⟩ := realMarks_finite (finite x rfl)
      rw [Literal.marks, form]
      refine readOperand?_signedNumber ?_ (numberLiteral_pointed (finite x rfl) pointed same)
      rw [String.toList_ofList]
      exact .point pointed.nonempty pointed.before pointed.after
  | string content =>
      have characters : writtenCharacters (Literal.string content).marks =
          quotedText '\x27' content := by
        simp [writtenCharacters, Literal.marks, Mark.written, Token.written]
      have alone : Stops (· == '\x27') ([] : List Char) := by
        rintro c ⟨⟩
      rw [toList_writtenMarks, characters, quotedText, List.cons_append, readOperand?,
        if_neg (by decide), if_neg (by decide), if_pos rfl, quoted?_doubled alone, Option.map_some,
        String.ofList_toList]

theorem readOperand?_named {text : List Char} (start : startsName c = true)
    (none : wordLiterals.lookup (String.ofList (c :: text)) = none) :
    readOperand? (c :: text) = readField? (c :: text) := by
  rw [readOperand?, if_neg (ne_of_startsName start rfl), if_neg (ne_of_startsName start rfl),
    if_neg (ne_of_startsName start rfl), if_neg (ne_of_startsName start rfl),
    not_isDigit_of_startsName start, if_neg Bool.false_ne_true, none]

/-- What starts with a name is no literal that is written as a word, if it is one name in
itself or has a point in it. -/
theorem lookup_wordLiterals {text : String}
    (other : '.' ∈ text.toList ∨ ∃ name, text = nameText name) :
    wordLiterals.lookup text = none := by
  refine List.lookup_eq_none_iff.mpr fun entry member => ?_
  have words : ∀ entry ∈ wordLiterals, isBareName entry.1 = false ∧ '.' ∉ entry.1.toList ∧
      entry.1.toList.head? ≠ some '\x22' := by decide +kernel
  obtain ⟨free, pointless, unquoted⟩ := words entry member
  rw [bne_iff_ne]
  rintro rfl
  rcases other with pointed | ⟨name, same⟩
  · exact pointless pointed
  · rw [nameText] at same
    split at same
    · rename_i bare
      rw [same, bare] at free
      cases free
    · rw [same, String.toList_ofList] at unquoted
      exact unquoted rfl

theorem readOperand?_field {relation : Option String} :
    readOperand? (Expression.field relation name).render.toList =
      some (.field relation name) := by
  rw [Expression.render, toList_writtenMarks]
  have ends : Stops (fun c => Text.isWordCharacter c || c == '\x22') [] := nofun
  have last : readName? ((nameText name).toList ++ []) = some (name, []) := readName?_nameText ends
  rw [List.append_nil] at last
  cases relation with
  | none =>
      have characters : writtenCharacters (Expression.field none name).marks =
          (nameText name).toList := by
        simp [writtenCharacters, Expression.marks, Mark.name, Mark.written, Token.written]
      obtain ⟨c, others, form, start⟩ := nameText_starts name
      have free : wordLiterals.lookup (String.ofList (c :: others)) = none := by
        rw [← form, String.ofList_toList]
        exact lookup_wordLiterals (.inr ⟨name, rfl⟩)
      rw [characters, form, readOperand?_named start free, ← form, readField?, last]
      rfl
  | some relation =>
      have characters : writtenCharacters (Expression.field (some relation) name).marks =
          (nameText relation).toList ++ '.' :: (nameText name).toList := by
        simp [writtenCharacters, Expression.marks, Mark.name, Mark.symbol, Mark.written,
          Token.written, Symbol.spelling]
      have point : Stops (fun c => Text.isWordCharacter c || c == '\x22')
          ('.' :: (nameText name).toList) := by
        rintro c ⟨⟩
        decide
      obtain ⟨c, others, form, start⟩ := nameText_starts relation
      have free : wordLiterals.lookup
          (String.ofList (c :: (others ++ '.' :: (nameText name).toList))) = none := by
        refine lookup_wordLiterals (.inl ?_)
        simp
      rw [characters, form, List.cons_append, readOperand?_named start free, ← List.cons_append,
        ← form, readField?, readName?_nameText point]
      simp [last]

/-- An operand is read off its text. -/
theorem readOperand?_render (leaf : argument.isLeaf = true)
    (finite : ∀ x, argument = .literal (.real x) → x.isFinite = true) :
    readOperand? argument.render.toList = some argument.unnumbered := by
  cases argument with
  | field relation name => exact readOperand?_field
  | literal value => exact readOperand?_literal fun x same => finite x (by rw [same])
  | parameter index =>
      rw [Expression.render, Expression.marks]
      rfl
  | star => rfl
  | _ => cases leaf

/-! ## Calls -/

/-- Whether two calls are the same but for the numbers of placeholders. -/
def Expression.Alike (first second : Expression) : Prop :=
  first = second ∨ ∃ function index other,
    first = .call function [.parameter index] ∧ second = .call function [.parameter other]

theorem render_call :
    (Expression.call function [argument]).render.toList =
      function.toList ++ '(' :: (argument.render.toList ++ [')']) := by
  rw [Expression.render, Expression.render, toList_writtenMarks, toList_writtenMarks]
  simp [writtenCharacters, Expression.marks, Expression.marksOfList_eq, Mark.parenthesized,
    Mark.separated, Mark.symbol, Mark.written, Token.written, Symbol.spelling]

/-- A call of an aggregate on an operand without parts, as it comes out of the reader. -/
structure Expression.PlainAggregate (expression : Expression) : Prop where
  aggregate : expression.isAggregateCall = true
  single : ∃ function argument, expression = .call function [argument] ∧ argument.isLeaf = true
  readable : expression.Readable

theorem render_call_injective {other : String} {operand : Expression}
    (named : aggregateNames.contains function = true) (also : aggregateNames.contains other = true)
    (same : (Expression.call function [argument]).render =
      (Expression.call other [operand]).render) :
    function = other ∧ argument.render = operand.render := by
  have words : (aggregateNames.all fun name => name.toList.all (· != '(')) = true := by decide
  have free (name : String) (member : name ∈ aggregateNames) :
      ∀ c ∈ name.toList, (c != '(') = true :=
    List.all_eq_true.mp (List.all_eq_true.mp words name member)
  have stops (text : List Char) : Stops (· != '(') ('(' :: text) := by
    rintro c ⟨⟩
    rfl
  have inside := free function (List.contains_iff_mem.mp named)
  have within := free other (List.contains_iff_mem.mp also)
  have texts := congrArg String.toList same
  rw [render_call, render_call] at texts
  have names := congrArg (List.takeWhile (· != '(')) texts
  have rests := congrArg (List.dropWhile (· != '(')) texts
  rw [takeWhile_run inside (stops _), takeWhile_run within (stops _)] at names
  rw [dropWhile_run inside (stops _), dropWhile_run within (stops _)] at rests
  exact ⟨String.toList_inj.mp names,
    String.toList_inj.mp (List.append_cancel_right (List.cons.inj rests).2)⟩

theorem unnumbered_eq (same : first.unnumbered = second.unnumbered) :
    first = second ∨ ∃ index other, first = .parameter index ∧ second = .parameter other := by
  cases first <;> cases second <;> simp_all [Expression.unnumbered]

/-- Calls are written the same where they differ in nothing but placeholders. -/
theorem render_eq_iff (plain : first.PlainAggregate) (other : second.PlainAggregate) :
    first.render = second.render ↔ first.Alike second := by
  obtain ⟨named, ⟨function, argument, rfl, leaf⟩, readable⟩ := plain
  obtain ⟨also, ⟨function', operand, rfl, leaf'⟩, readable'⟩ := other
  refine ⟨fun same => ?_, ?_⟩
  · obtain ⟨rfl, alike⟩ := render_call_injective named also same
    have finite {expression : Expression}
        (readable : (Expression.call function [expression]).Readable) :
        ∀ x, expression = .literal (.real x) → x.isFinite = true := by
      rintro x rfl
      cases readable with
      | call starred all =>
          cases all _ List.mem_cons_self nofun with
          | literal finite => exact finite x rfl
    have read := readOperand?_render leaf (finite readable)
    rw [alike, readOperand?_render leaf' (finite readable')] at read
    obtain rfl | ⟨index, other, rfl, rfl⟩ := unnumbered_eq (Option.some.inj read.symm)
    · exact .inl rfl
    · exact .inr ⟨function, index, other, rfl, rfl⟩
  · rintro (same | ⟨_, _, _, same, same'⟩)
    · rw [same]
    · rw [same, same']
      rfl

end Coffer.Language
