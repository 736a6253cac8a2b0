import Mathlib.Data.List.Chain
import Coffer.Language.Rendering
import Coffer.Proofs.Encoding

namespace Coffer.Language

/-! # Reading rendered text

Marks read back as their tokens. Each one is judged on its text followed by any rest, of
which only the first character matters: most marks are followed by a space or by one of
three symbols, and none of these goes on with the token before it.
-/

variable {text rest content digits fraction : List Char} {piece : Token} {expected : List Token}
variable {marks others : List Mark} {mark next : Mark} {name : String} {c quote : Char}

/-- Whether a text reads as the given tokens, up to its end. -/
def ReadsAs (text : List Char) (tokens : List Token) : Prop :=
  ∀ limit, text.length < limit → readTokens limit text = ⟨tokens, none⟩

theorem ReadsAs.nil : ReadsAs [] [] := by
  intro limit enough
  cases limit with
  | zero => exact absurd enough (Nat.not_lt_zero _)
  | succ limit => rfl

theorem ReadsAs.space (reads : ReadsAs rest expected) : ReadsAs (' ' :: rest) expected := by
  intro limit enough
  cases limit with
  | zero => exact absurd enough (Nat.not_lt_zero _)
  | succ limit =>
      have same : nextLexeme (' ' :: rest) = nextLexeme rest := rfl
      rw [← reads (limit + 1) (Nat.lt_of_succ_lt enough), readTokens, readTokens, same]

theorem ReadsAs.token (found : nextLexeme (text ++ rest) = .found piece rest)
    (nonempty : text ≠ []) (reads : ReadsAs rest expected) :
    ReadsAs (text ++ rest) (piece :: expected) := by
  intro limit enough
  have taken : 0 < text.length := List.length_pos_of_ne_nil nonempty
  rw [List.length_append] at enough
  cases limit with
  | zero => exact absurd enough (Nat.not_lt_zero _)
  | succ limit =>
      rw [readTokens, found]
      simp only [reads limit (by omega)]

theorem ReadsAs.tokensOf (reads : ReadsAs name.toList expected) : tokensOf name = ⟨expected, none⟩ :=
  reads _ (Nat.lt_succ_self _)

/-- Two sets of characters that share none. -/
def apart (first second : Text.Ranges) : Bool :=
  first.all fun range => second.all fun other =>
    decide (range.2 < other.1) || decide (other.2 < range.1)

theorem not_has_of_apart {first second : Text.Ranges} (separate : apart first second = true)
    (inside : first.has c = true) : second.has c = false := by
  obtain ⟨range, among, within⟩ := List.any_eq_true.mp inside
  refine List.any_eq_false.mpr fun other member both => ?_
  have beyond := List.all_eq_true.mp (List.all_eq_true.mp separate range among) other member
  simp only [Bool.and_eq_true, Bool.or_eq_true, decide_eq_true_eq] at within both beyond
  omega

theorem letters_apart_blanks : apart Text.lettersBeyondAscii Text.blanksBeyondAscii = true := by
  decide +kernel

theorem not_isBlank_of_isAlphabetic (letter : Text.isAlphabetic c = true) :
    Text.isBlank c = false := by
  rw [Text.isAlphabetic] at letter
  rw [Text.isBlank]
  split at letter
  · rename_i ascii
    rw [if_pos ascii]
    simp only [Text.isLatinLetter, Bool.or_eq_true, Bool.and_eq_true, decide_eq_true_eq] at letter
    have visible : c ≠ ' ' := fun same => by
      subst same
      simp at letter
    simp only [Bool.or_eq_false_iff, beq_eq_false_iff_ne, visible, ne_eq, not_false_eq_true,
      Bool.and_eq_false_iff, decide_eq_false_iff_not, true_and]
    omega
  · rename_i beyond
    rw [if_neg beyond]
    exact not_has_of_apart letters_apart_blanks letter

/-- A character that starts a word starts nothing else. -/
theorem wordStart_ne {other : Char} (start : isWordStart c = true)
    (none : isWordStart other = false) : c ≠ other :=
  fun same => by simp [← same, start] at none

theorem not_isBlank_of_wordStart (start : isWordStart c = true) : Text.isBlank c = false := by
  rcases Bool.or_eq_true_iff.mp start with letter | line
  · exact not_isBlank_of_isAlphabetic letter
  · rw [beq_iff_eq.mp line]
    rfl

theorem not_isDigit_of_wordStart (start : isWordStart c = true) : Text.isDigit c = false := by
  by_contra digit
  simp only [Text.isDigit, Bool.not_eq_false, Bool.and_eq_true, decide_eq_true_eq] at digit
  have ascii : Text.isAscii c = true := by
    simp only [Text.isAscii, decide_eq_true_eq]
    omega
  simp only [isWordStart, Text.isAlphabetic, ascii, if_true, Text.isLatinLetter, Bool.or_eq_true,
    Bool.and_eq_true, decide_eq_true_eq, beq_iff_eq] at start
  rcases start with letter | line
  · omega
  · subst line
    simp at digit

theorem afterGap_of_not_isBlank (visible : Text.isBlank c = false) (sign : c ≠ '-') :
    afterGap false (c :: text) = c :: text := by
  rw [afterGap]
  · rw [visible]
    rfl
  · exact fun _ same _ => sign same

/-- A word of the text, up to a character that is no part of it. -/
theorem nextLexeme_word (start : isWordStart c = true)
    (parts : ∀ part ∈ text, isWordPart part = true) (stops : Stops isWordPart rest) :
    nextLexeme (c :: text ++ rest) = .found (wordToken (String.ofList (c :: text))) rest := by
  have string : c ≠ '\x27' := wordStart_ne start rfl
  have doubled : c ≠ '\x22' := wordStart_ne start rfl
  have tick : c ≠ '\x60' := wordStart_ne start rfl
  have noDigit : Text.isDigit c = false := not_isDigit_of_wordStart start
  rw [nextLexeme, List.cons_append,
    afterGap_of_not_isBlank (not_isBlank_of_wordStart start) (wordStart_ne start rfl), lexemeAt]
  simp only [string, doubled, tick, noDigit, start, or_self, if_false, if_true, takeWhile_run parts stops,
    dropWhile_run parts stops, Bool.false_eq_true]

theorem quoted?_doubled (stops : Stops (· == quote) rest) :
    quoted? quote ((content.flatMap fun c => if c = quote then [c, c] else [c]) ++ quote :: rest) =
      some (content, rest) := by
  induction content with
  | nil =>
      cases rest with
      | nil => simp [quoted?]
      | cons next others =>
          have other : next ≠ quote := by simpa using stops next rfl
          simp [quoted?, other]
  | cons c more ih =>
      by_cases same : c = quote
      · subst same
        simp [quoted?, ih]
      · rw [List.flatMap_cons, if_neg same, List.singleton_append, List.cons_append]
        generalize (more.flatMap fun c => if c = quote then [c, c] else [c]) ++ quote :: rest = tail at ih
        match tail with
        | [] => cases ih
        | next :: others => simp [quoted?, same, ih]

theorem nextLexeme_string (stops : Stops (· == '\x27') rest) :
    nextLexeme (quotedText '\x27' name ++ rest) = .found (.string name) rest := by
  rw [nextLexeme, quotedText, List.append_assoc, List.cons_append,
    afterGap_of_not_isBlank (by rfl) (by decide), lexemeAt, if_pos rfl, List.singleton_append,
    quoted?_doubled stops]
  simp only [String.ofList_toList]

theorem nextLexeme_quotedName (stops : Stops (· == '\x22') rest) :
    nextLexeme (quotedText '\x22' name ++ rest) = .found (.identifier name) rest := by
  rw [nextLexeme, quotedText, List.append_assoc, List.cons_append,
    afterGap_of_not_isBlank (by rfl) (by decide), lexemeAt, if_neg (by decide), if_pos (.inl rfl),
    List.singleton_append, quoted?_doubled stops]
  simp only [String.ofList_toList]

/-- The characters of a number as it is rendered: digits, perhaps with a point and further
digits. -/
inductive PlainNumber : List Char → Prop where
  | whole {digits : List Char} (nonempty : digits ≠ [])
      (all : ∀ digit ∈ digits, Text.isDigit digit = true) : PlainNumber digits
  | point {digits fraction : List Char} (nonempty : digits ≠ [])
      (all : ∀ digit ∈ digits, Text.isDigit digit = true)
      (others : ∀ digit ∈ fraction, Text.isDigit digit = true) :
      PlainNumber (digits ++ '.' :: fraction)

/-- What goes on with a number that is written before it. -/
def continuesNumber (c : Char) : Bool :=
  Text.isDigit c || c == '.' || c == 'e' || c == 'E'

theorem scanExponent_of_stops (stops : Stops continuesNumber rest) :
    scanExponent rest = ⟨[], rest, true⟩ := by
  cases rest with
  | nil => rfl
  | cons c others =>
      have none := stops c rfl
      simp only [continuesNumber, Bool.or_eq_false_iff] at none
      simp only [scanExponent, none, Bool.or_self, if_false, Bool.false_eq_true]

theorem scanNumber_plain (plain : PlainNumber text) (stops : Stops continuesNumber rest) :
    scanNumber (text ++ rest) = ⟨text, rest, true⟩ := by
  have noDigit : Stops Text.isDigit rest := by
    intro c head
    have none := stops c head
    simp only [continuesNumber, Bool.or_eq_false_iff] at none
    exact none.1.1.1
  cases plain with
  | whole nonempty all =>
      rw [scanNumber, takeWhile_run all noDigit, dropWhile_run all noDigit]
      cases rest with
      | nil => simp [scanExponent]
      | cons c others =>
          have other : c ≠ '.' := by
            rintro rfl
            exact absurd (stops '.' rfl) (by decide)
          simp [other, scanExponent_of_stops stops]
  | point nonempty all others =>
      have point : ∀ more, Stops Text.isDigit ('.' :: more) := by
        intro more c head
        cases head
        rfl
      rw [scanNumber, List.append_assoc, List.cons_append, takeWhile_run all (point _),
        dropWhile_run all (point _)]
      simp [takeWhile_run others noDigit, scanExponent_of_stops stops]

theorem PlainNumber.leading (plain : PlainNumber text) :
    ∃ c others, text = c :: others ∧ Text.isDigit c = true := by
  cases plain with
  | whole nonempty all =>
      obtain ⟨c, others, rfl⟩ := List.exists_cons_of_ne_nil nonempty
      exact ⟨c, others, rfl, all c List.mem_cons_self⟩
  | point nonempty all others =>
      obtain ⟨c, more, rfl⟩ := List.exists_cons_of_ne_nil nonempty
      exact ⟨c, _, rfl, all c List.mem_cons_self⟩

theorem digit_ne {c other : Char} (digit : Text.isDigit c = true)
    (none : Text.isDigit other = false) : c ≠ other :=
  fun same => by simp [← same, digit] at none

/-- A digit starts a number and nothing else. -/
theorem lexemeAt_digit (digit : Text.isDigit c = true) :
    lexemeAt (c :: text) =
      if (scanNumber (c :: text)).complete then
        .found (.number (String.ofList (scanNumber (c :: text)).characters)) (scanNumber (c :: text)).rest
      else faultAt (scanNumber (c :: text)).rest := by
  have single : c ≠ '\x27' := digit_ne digit rfl
  have unnamed : ¬ (c = '\x22' ∨ c = '\x60') := not_or.mpr ⟨digit_ne digit rfl, digit_ne digit rfl⟩
  rw [lexemeAt, if_neg single, if_neg unnamed, if_pos digit]

theorem nextLexeme_digit (digit : Text.isDigit c = true) :
    nextLexeme (c :: text) = lexemeAt (c :: text) := by
  rw [nextLexeme, afterGap_of_not_isBlank (Text.isBlank_of_isDigit digit) (digit_ne digit rfl)]

theorem nextLexeme_number (plain : PlainNumber text) (stops : Stops continuesNumber rest) :
    nextLexeme (text ++ rest) = .found (.number (String.ofList text)) rest := by
  have scanned := scanNumber_plain plain stops
  obtain ⟨c, others, rfl, digit⟩ := plain.leading
  rw [List.cons_append] at scanned ⊢
  rw [nextLexeme_digit digit, lexemeAt_digit digit, scanned]
  rfl

/-- The characters that may go on with a symbol or a sign before them. -/
def continuesSymbol (c : Char) : Bool :=
  c == '=' || c == '>' || c == '-'

theorem nextLexeme_openParen : nextLexeme ('(' :: rest) = .found (.symbol .openParen) rest := rfl

theorem nextLexeme_period : nextLexeme ('.' :: rest) = .found (.symbol .period) rest := rfl

/-- A character that stands for a symbol and nothing else. -/
theorem lexemeAt_symbol {mark : Symbol} (found : symbol? (c :: text) = some (mark, rest))
    (plain : Text.isDigit c = false ∧ isWordStart c = false)
    (unquoted : c ≠ '\x27' ∧ c ≠ '\x22' ∧ c ≠ '\x60') :
    lexemeAt (c :: text) = .found (.symbol mark) rest := by
  simp only [lexemeAt, unquoted, plain, found, or_self, if_false, Bool.false_eq_true]

/-- Most symbols are read whatever follows them. -/
theorem nextLexeme_symbol {mark : Symbol} (stops : Stops continuesSymbol rest) :
    nextLexeme (mark.spelling.toList ++ rest) = .found (.symbol mark) rest := by
  cases rest with
  | nil => cases mark <;> rfl
  | cons c others =>
      have other := stops c rfl
      simp only [continuesSymbol, Bool.or_eq_false_iff, beq_eq_false_iff_ne] at other
      obtain ⟨⟨equal, greater⟩, minus⟩ := other
      cases mark with
      | equal =>
          have found : symbol? ('=' :: c :: others) = some (.equal, c :: others) := by
            rw [symbol?]
            simp [equal]
          exact lexemeAt_symbol found (by decide) (by decide)
      | greater =>
          have found : symbol? ('>' :: c :: others) = some (.greater, c :: others) := by
            rw [symbol?]
            simp [equal]
          exact lexemeAt_symbol found (by decide) (by decide)
      | less =>
          have found : symbol? ('<' :: c :: others) = some (.less, c :: others) := by
            rw [symbol?] <;> simp [equal, greater]
          exact lexemeAt_symbol found (by decide) (by decide)
      | exclamation =>
          have found : symbol? ('!' :: c :: others) = some (.exclamation, c :: others) := by
            rw [symbol?]
            simp [equal]
          exact lexemeAt_symbol found (by decide) (by decide)
      | minus =>
          have visible : afterGap false ('-' :: c :: others) = '-' :: c :: others := by
            rw [afterGap] <;> simp [minus, Text.isBlank, Text.isAscii]
          change lexemeAt (afterGap false ('-' :: c :: others)) = _
          rw [visible]
          rfl
      | _ => rfl

/-- Whether a text reads as one word that is no keyword. -/
def isPlainWord (text : String) : Bool :=
  match text.toList with
  | [] => false
  | first :: others =>
    isWordStart first && others.all isWordPart && (Keyword.ofWord? text).isNone

theorem nextLexeme_plainWord (plain : isPlainWord name = true) (stops : Stops isWordPart rest) :
    nextLexeme (name.toList ++ rest) = .found (.identifier name) rest := by
  rw [isPlainWord] at plain
  split at plain
  · cases plain
  · rename_i first others characters
    simp only [Bool.and_eq_true, List.all_eq_true, Option.isNone_iff_eq_none] at plain
    obtain ⟨⟨start, parts⟩, free⟩ := plain
    rw [characters, nextLexeme_word start parts stops, ← characters, String.ofList_toList,
      wordToken, free]

theorem keyword_word : ∀ word ∈ Keyword.every, Keyword.ofWord? word.spelling = some word ∧
    word.spelling.toList.head?.all isWordStart = true ∧
    word.spelling.toList.all isWordPart = true ∧ word.spelling.toList ≠ [] := by
  decide +kernel

theorem Keyword.mem_every (word : Keyword) : word ∈ Keyword.every := by
  cases word <;> decide

theorem nextLexeme_keyword {word : Keyword} (stops : Stops isWordPart rest) :
    nextLexeme (word.spelling.toList ++ rest) = .found (.keyword word) rest := by
  obtain ⟨same, start, parts, nonempty⟩ := keyword_word word word.mem_every
  obtain ⟨first, others, characters⟩ := List.exists_cons_of_ne_nil nonempty
  rw [characters] at start parts
  have within : ∀ part ∈ others, isWordPart part = true := fun part member =>
    List.all_eq_true.mp parts part (List.mem_cons_of_mem first member)
  rw [characters, nextLexeme_word start within stops, ← characters, String.ofList_toList,
    wordToken, same]

/-! ## Marks -/

/-- Whether a name reads back in the form in which it is written. Names are quoted unless
they are bare, and functions never are. -/
def Mark.isLegible : Mark → Bool
  | .token (.identifier name) => !isBareName name || isPlainWord name
  | .bare text => isPlainWord text
  | _ => true

/-- The tokens that marks stand for. -/
def Mark.tokens : Mark → List Token
  | .token piece => [piece]
  | .bare text => [.identifier text]
  | .space => []

def tokensIn (marks : List Mark) : List Token :=
  marks.flatMap Mark.tokens

/-- Whether a mark goes on with no token before it, whichever that is. -/
def Mark.closes : Mark → Bool
  | .space => true
  | .token (.symbol mark) => mark = .openParen || mark = .closeParen || mark = .comma
  | _ => false

/-- Whether a mark is read whatever follows it. -/
def Mark.opens : Mark → Bool
  | .space => true
  | .token (.symbol mark) => mark = .openParen || mark = .period
  | _ => false

/-- Whether a mark may be followed by another one. -/
def Mark.adjoins : Mark → Mark → Bool
  | .token (.symbol .minus), .token (.number _) => true
  | .token (.identifier _), .token (.symbol .period) => true
  | mark, next => mark.opens || next.closes

/-- Whether a mark is no number, or one in the form that is read back. -/
def Mark.IsPlain : Mark → Prop
  | .token (.number text) => PlainNumber text.toList
  | _ => True

/-- Marks that are set off from each other as the reader needs it. -/
structure Spaced (marks : List Mark) : Prop where
  chain : marks.IsChain fun mark next => mark.adjoins next = true
  plain : ∀ mark ∈ marks, mark.IsPlain

def writtenCharacters (marks : List Mark) : List Char :=
  marks.flatMap fun mark => mark.written.toList

theorem toList_writtenMarks : (writtenMarks marks).toList = writtenCharacters marks := by
  rw [writtenMarks, String.toList_join, List.flatMap_map, writtenCharacters]

/-- The four characters a closing mark can start with. -/
def breaks : List Char := [' ', '(', ')', ',']

theorem stops_of_closes {test : Char → Bool} (none : breaks.any test = false)
    (closes : ∀ next ∈ others.head?, next.closes = true) :
    Stops test (writtenCharacters others) := by
  cases others with
  | nil => nofun
  | cons next more =>
      have closing := closes next rfl
      have listed : ∀ c, c ∈ breaks → ∀ characters,
          Stops test (c :: characters) := by
        intro c member characters other head
        cases head
        exact Bool.eq_false_iff.mpr (List.any_eq_false.mp none c member)
      cases next with
      | space => exact listed ' ' (by decide) _
      | bare text => cases closing
      | token piece =>
          cases piece with
          | symbol mark =>
              simp only [Mark.closes, Bool.or_eq_true, decide_eq_true_eq] at closing
              rcases closing with (rfl | rfl) | rfl
              · exact listed '(' (by decide) _
              · exact listed ')' (by decide) _
              · exact listed ',' (by decide) _
          | number text | string text | identifier text | keyword text => cases closing

theorem stops_after_name {test : Char → Bool} (none : ('.' :: breaks).any test = false)
    (follows : ∀ next ∈ others.head?, (Mark.name name).adjoins next = true) :
    Stops test (writtenCharacters others) := by
  obtain ⟨point, breaking⟩ := Bool.or_eq_false_iff.mp none
  by_cases period : others.head? = some (.symbol .period)
  · obtain ⟨more, rfl⟩ := List.head?_eq_some_iff.mp period
    intro c head
    cases head
    exact point
  · refine stops_of_closes breaking fun next head => ?_
    have allowed := follows next head
    unfold Mark.adjoins at allowed
    split at allowed
    · rename_i same
      cases same
    · exact absurd head period
    · exact allowed

theorem stops_after_minus (plain : ∀ next ∈ others, next.IsPlain)
    (follows : ∀ next ∈ others.head?, (Mark.symbol .minus).adjoins next = true) :
    Stops continuesSymbol (writtenCharacters others) := by
  by_cases number : ∃ text, others.head? = some (.token (.number text))
  · obtain ⟨text, head⟩ := number
    obtain ⟨more, rfl⟩ := List.head?_eq_some_iff.mp head
    have digits : PlainNumber text.toList := plain (.token (.number text)) List.mem_cons_self
    obtain ⟨digit, further, form, isDigit⟩ := digits.leading
    intro c first
    have same : (text.toList ++ writtenCharacters more).head? = some c := first
    rw [form] at same
    cases same
    have different : ∀ other, Text.isDigit other = false → digit ≠ other := by
      rintro other none rfl
      exact Bool.false_ne_true (none.symm.trans isDigit)
    simp only [continuesSymbol, Bool.or_eq_false_iff, beq_eq_false_iff_ne]
    exact ⟨⟨different '=' rfl, different '>' rfl⟩, different '-' rfl⟩
  · refine stops_of_closes (by decide) fun next head => ?_
    have allowed := follows next head
    unfold Mark.adjoins at allowed
    split at allowed
    · exact absurd ⟨_, head⟩ number
    · rename_i same
      cases same
    · exact allowed

theorem plainWord_ne_nil (plain : isPlainWord name = true) : name.toList ≠ [] := by
  intro empty
  rw [isPlainWord, empty] at plain
  cases plain

theorem nextLexeme_name (legible : (Mark.name name).isLegible = true)
    (stops : Stops (fun c => isWordPart c || c == '\x22') rest) :
    nextLexeme ((nameText name).toList ++ rest) = .found (.identifier name) rest ∧
      (nameText name).toList ≠ [] := by
  rw [nameText]
  split
  · rename_i bare
    have plain : isPlainWord name = true := by
      simpa only [Mark.name, Mark.isLegible, bare, Bool.not_true, Bool.false_or] using legible
    exact ⟨nextLexeme_plainWord plain fun c head => (Bool.or_eq_false_iff.mp (stops c head)).1,
      plainWord_ne_nil plain⟩
  · rw [String.toList_ofList]
    exact ⟨nextLexeme_quotedName fun c head => (Bool.or_eq_false_iff.mp (stops c head)).2, by
      simp [quotedText]⟩

/-- Every mark but a space reads as its token, and leaves the marks after it. -/
theorem nextLexeme_mark (legible : mark.isLegible = true) (plain : mark.IsPlain)
    (othersPlain : ∀ next ∈ others, next.IsPlain)
    (follows : ∀ next ∈ others.head?, mark.adjoins next = true) (solid : mark ≠ .space) :
    ∃ piece, mark.tokens = [piece] ∧ mark.written.toList ≠ [] ∧
      nextLexeme (mark.written.toList ++ writtenCharacters others) =
        .found piece (writtenCharacters others) := by
  cases mark with
  | space => exact absurd rfl solid
  | bare text =>
      have closes : ∀ next ∈ others.head?, next.closes = true := follows
      exact ⟨_, rfl, plainWord_ne_nil legible,
        nextLexeme_plainWord legible (stops_of_closes (by decide) closes)⟩
  | token piece =>
      cases piece with
      | number text =>
          have closes : ∀ next ∈ others.head?, next.closes = true := follows
          obtain ⟨digit, further, form, -⟩ := PlainNumber.leading plain
          have stops : Stops continuesNumber (writtenCharacters others) :=
            stops_of_closes (by decide) closes
          have read := nextLexeme_number plain stops
          rw [String.ofList_toList] at read
          exact ⟨_, rfl, form ▸ List.cons_ne_nil _ _, read⟩
      | string content =>
          have closes : ∀ next ∈ others.head?, next.closes = true := follows
          refine ⟨_, rfl, ?_, ?_⟩
          · simp [Mark.written, Token.written, quotedText]
          · rw [Mark.written, Token.written, String.toList_ofList]
            exact nextLexeme_string (stops_of_closes (by decide) closes)
      | identifier name =>
          have read := nextLexeme_name legible (stops_after_name (by decide) follows)
          exact ⟨_, rfl, read.2, read.1⟩
      | keyword word =>
          have closes : ∀ next ∈ others.head?, next.closes = true := follows
          exact ⟨_, rfl, (keyword_word word word.mem_every).2.2.2,
            nextLexeme_keyword (stops_of_closes (by decide) closes)⟩
      | symbol symbol =>
          have nonempty : symbol.spelling.toList ≠ [] := by cases symbol <;> decide
          refine ⟨_, rfl, nonempty, ?_⟩
          cases symbol with
          | openParen => exact nextLexeme_openParen
          | period => exact nextLexeme_period
          | minus => exact nextLexeme_symbol (stops_after_minus othersPlain follows)
          | _ => exact nextLexeme_symbol (stops_of_closes (by decide) follows)

theorem readsAs_marks (spaced : Spaced marks) (legible : ∀ mark ∈ marks, mark.isLegible = true) :
    ReadsAs (writtenCharacters marks) (tokensIn marks) := by
  obtain ⟨chain, plain⟩ := spaced
  induction marks with
  | nil => exact .nil
  | cons mark others ih =>
      obtain ⟨follows, chain⟩ := List.isChain_cons.mp chain
      obtain ⟨first, legible⟩ := List.forall_mem_cons.mp legible
      obtain ⟨firstPlain, plain⟩ := List.forall_mem_cons.mp plain
      have reads := ih legible chain plain
      by_cases solid : mark = .space
      · subst solid
        exact reads.space
      · obtain ⟨piece, same, nonempty, found⟩ := nextLexeme_mark first firstPlain plain follows solid
        rw [tokensIn, List.flatMap_cons, same]
        exact reads.token found nonempty

/-- Rendered text reads back as the tokens it was rendered from. -/
theorem tokensOf_writtenMarks (spaced : Spaced marks)
    (legible : ∀ mark ∈ marks, mark.isLegible = true) :
    tokensOf (writtenMarks marks) = ⟨tokensIn marks, none⟩ := by
  refine ReadsAs.tokensOf ?_
  rw [toList_writtenMarks]
  exact readsAs_marks spaced legible

end Coffer.Language
