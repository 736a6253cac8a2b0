import Coffer.Language.Diagnosis
import Coffer.Proofs.TokenEnds
import Coffer.Proofs.TokensTaken

namespace Coffer.Language

/-! # Where the characters of a text go

Between the texts of tokens there is nothing but blanks and comments. The one exception is a
number that breaks off in its exponent: at the end of a text it is taken in, makes no token, and
is no fault. With a blank after it, it is one.
-/

variable {text rest content characters front mark gap lost spelling : List Char}
variable {token : Token} {tokens : List Token} {inComment : Bool} {quote c : Char}

/-! ## Gaps -/

/-- Blanks and comments, each comment with the end of its line. -/
inductive Gap : List Char → Prop where
  | nil : Gap []
  | blank {c : Char} {text : List Char} (blank : Text.isBlank c = true) (rest : Gap text) :
      Gap (c :: text)
  | comment {line text : List Char} (within : '\n' ∉ line) (rest : Gap text) :
      Gap ('-' :: '-' :: (line ++ '\n' :: text))

/-- Blanks and comments at the end of a text, where the last line need not end. -/
inductive LastGap : List Char → Prop where
  | closed {text : List Char} (gap : Gap text) : LastGap text
  | opened {text line : List Char} (gap : Gap text) (within : '\n' ∉ line) :
      LastGap (text ++ '-' :: '-' :: line)

theorem Gap.leading (gap : Gap (c :: text)) : Text.isBlank c = true ∨ c = '-' := by
  cases gap with
  | blank blank => exact .inl blank
  | comment => exact .inr rfl

theorem LastGap.leading (last : LastGap (c :: text)) : Text.isBlank c = true ∨ c = '-' := by
  generalize form : c :: text = whole at last
  cases last with
  | closed gap => exact Gap.leading (form ▸ gap)
  | @opened front line gap =>
      cases front with
      | nil =>
          cases form
          exact .inr rfl
      | cons first front =>
          cases form
          exact gap.leading

/-! ## Tokens -/

/-- The mark of an exponent, and perhaps a sign. -/
inductive ExponentStart : List Char → Prop where
  | plain {mark : Char} (marks : marksExponent mark = true) : ExponentStart [mark]
  | signed {mark sign : Char} (marks : marksExponent mark = true) (signs : sign = '+' ∨ sign = '-') :
      ExponentStart [mark, sign]

/-- The texts of numbers. -/
inductive NumberText : List Char → Prop where
  | plain {front : List Char} (plain : PlainNumber front) : NumberText front
  | exponent {front mark digits : List Char} (plain : PlainNumber front) (marks : ExponentStart mark)
      (nonempty : digits ≠ []) (all : ∀ c ∈ digits, Text.isDigit c = true) :
      NumberText (front ++ (mark ++ digits))

/-- Whether a text breaks off in the exponent of a number. -/
inductive Unfinished : List Char → Prop where
  | exponent {front mark : List Char} (plain : PlainNumber front) (marks : ExponentStart mark) :
      Unfinished (front ++ mark)

/-- The ways to write a token. -/
inductive Spells : List Char → Token → Prop where
  | string (content : String) : Spells (quotedText '\x27' content) (.string content)
  | quotedName {quote : Char} (quotes : quote = '\x22' ∨ quote = '\x60') (name : String) :
      Spells (quotedText quote name) (.identifier name)
  | number {text : List Char} (form : NumberText text) : Spells text (.number (String.ofList text))
  | word {c : Char} {more : List Char} (start : isWordStart c = true)
      (parts : ∀ part ∈ more, isWordPart part = true) :
      Spells (c :: more) (wordToken (String.ofList (c :: more)))
  | symbol (mark : Symbol) : Spells mark.spelling.toList (.symbol mark)
  | doubled : Spells ['=', '='] (.symbol .equal)

/-- Whether a text is made of the texts of tokens in order, with nothing but gaps between them. -/
inductive Accounts : List Char → List Token → Prop where
  | last {text : List Char} (gap : LastGap text) : Accounts text []
  | token {gap spelling text : List Char} {token : Token} {tokens : List Token} (blank : Gap gap)
      (spells : Spells spelling token) (rest : Accounts text tokens) :
      Accounts (gap ++ (spelling ++ text)) (token :: tokens)

theorem Accounts.lastGap (accounts : Accounts text []) : LastGap text := by
  generalize none : ([] : List Token) = tokens at accounts
  cases accounts with
  | last gap => exact gap
  | token => cases none

/-! ## Reading gaps -/

theorem afterGap_line (within : '\n' ∉ text) :
    afterGap true (text ++ '\n' :: rest) = afterGap false rest := by
  induction text with
  | nil => rfl
  | cons c text ih =>
      obtain ⟨apart, others⟩ := List.ne_and_not_mem_of_not_mem_cons within
      rw [List.cons_append, afterGap, bne_iff_ne.mpr apart.symm, ih others]

theorem afterGap_openLine (within : '\n' ∉ text) : afterGap true text = [] := by
  induction text with
  | nil => rfl
  | cons c text ih =>
      obtain ⟨apart, others⟩ := List.ne_and_not_mem_of_not_mem_cons within
      rw [afterGap, bne_iff_ne.mpr apart.symm, ih others]

/-- A gap is left out before whatever follows it. -/
theorem Gap.skipped (blank : Gap gap) : afterGap false (gap ++ rest) = afterGap false rest := by
  induction blank with
  | nil => rfl
  | blank blank _ ih => rw [List.cons_append, afterGap_of_blank blank, ih]
  | comment within _ ih =>
      rw [List.cons_append, List.cons_append, List.append_assoc, afterGap, List.cons_append,
        afterGap_line within, ih]

theorem Gap.append (first : Gap gap) (second : Gap text) : Gap (gap ++ text) := by
  induction first with
  | nil => exact second
  | blank blank _ ih => exact .blank blank ih
  | comment within _ ih =>
      rw [List.cons_append, List.cons_append, List.append_assoc, List.cons_append]
      exact .comment within ih

theorem Gap.last (first : Gap gap) (second : LastGap text) : LastGap (gap ++ text) := by
  cases second with
  | closed second => exact .closed (first.append second)
  | opened second within =>
      rw [← List.append_assoc]
      exact .opened (first.append second) within

/-- What is left out before a token is a gap; only at the end of a text may a comment be open. -/
theorem afterGap_gap (text : List Char) :
    ∃ gap, text = gap ++ afterGap false text ∧
      (Gap gap ∨ afterGap false text = [] ∧ LastGap gap) := by
  induction size : text.length using Nat.strong_induction_on generalizing text with
  | h length ih =>
      subst size
      cases text with
      | nil => exact ⟨[], rfl, .inl .nil⟩
      | cons c more =>
          by_cases comment : c = '-' ∧ ∃ line, more = '-' :: line
          · obtain ⟨rfl, line, rfl⟩ := comment
            rw [afterGap]
            by_cases within : '\n' ∈ line
            · obtain ⟨line, more, rfl, outside⟩ := List.eq_append_cons_of_mem within
              have closed : Gap ('-' :: '-' :: (line ++ ['\n'])) := .comment outside .nil
              obtain ⟨gap, split, kind⟩ := ih more.length (by simp; omega) more rfl
              rw [afterGap_line outside]
              refine ⟨'-' :: '-' :: (line ++ ['\n']) ++ gap, ?_, kind.imp closed.append
                fun last => ⟨last.1, closed.last last.2⟩⟩
              nth_rewrite 1 [split]
              simp
            · rw [afterGap_openLine within]
              exact ⟨'-' :: '-' :: line, (List.append_nil _).symm, .inr ⟨rfl, .opened .nil within⟩⟩
          · by_cases blank : Text.isBlank c = true
            · have only : Gap [c] := .blank blank .nil
              obtain ⟨gap, split, kind⟩ := ih more.length (by simp) more rfl
              rw [afterGap_of_blank blank]
              refine ⟨[c] ++ gap, ?_, kind.imp only.append fun last => ⟨last.1, only.last last.2⟩⟩
              nth_rewrite 1 [split]
              rfl
            · have visible : afterGap false (c :: more) = c :: more :=
                afterGap_eq_self_iff.mpr ⟨Bool.eq_false_iff.mpr blank, fun sign line same =>
                  comment ⟨sign, line, same⟩⟩
              exact ⟨[], visible.symm, .inl .nil⟩

/-- A blank after a gap at the end of a text changes nothing. -/
theorem LastGap.skipped (last : LastGap text) : afterGap false (text ++ [' ']) = [] := by
  cases last with
  | closed gap => exact gap.skipped
  | opened gap within =>
      rw [List.append_assoc, gap.skipped, List.cons_append, List.cons_append, afterGap]
      exact afterGap_openLine (by simpa using within)

/-! ## Reading tokens -/

theorem quoted?_spells (found : quoted? quote text = some (content, rest)) :
    quote :: text = quotedText quote (String.ofList content) ++ rest := by
  have double : text = (content.flatMap fun c => if c = quote then [c, c] else [c]) ++ quote :: rest := by
    fun_induction quoted? quote text generalizing content with
    | case1 => cases found
    | case2 =>
        cases found
        rfl
    | case3 => cases found
    | case4 more ih =>
        obtain ⟨⟨inner, after⟩, read, same⟩ := Option.map_eq_some_iff.mp found
        cases same
        rw [List.flatMap_cons, if_pos rfl, List.append_assoc, ← ih read]
        rfl
    | case5 next more apart =>
        cases found
        rfl
    | case6 c next more apart ih =>
        obtain ⟨⟨inner, after⟩, read, same⟩ := Option.map_eq_some_iff.mp found
        cases same
        rw [List.flatMap_cons, if_neg apart, List.append_assoc, ← ih read]
        rfl
  rw [quotedText, String.toList_ofList, List.append_assoc, List.cons_append, List.singleton_append,
    ← double]

theorem symbol?_spells {mark : Symbol} (found : symbol? text = some (mark, rest)) :
    ∃ spelling, text = spelling ++ rest ∧ Spells spelling (.symbol mark) := by
  have single {text : List Char} (spelled : text = mark.spelling.toList ++ rest) :
      ∃ spelling, text = spelling ++ rest ∧ Spells spelling (.symbol mark) :=
    ⟨_, spelled, .symbol mark⟩
  revert found
  fun_cases symbol? text
  case case2 =>
    rintro ⟨⟩
    exact ⟨['=', '='], rfl, .doubled⟩
  case case19 => intro found; cases found
  all_goals
    rintro ⟨⟩
    exact single rfl

theorem scanExponent_form {complete : Bool} (scanned : scanExponent text = ⟨characters, rest, complete⟩) :
    text = characters ++ rest ∧
      (characters = [] ∧ complete = true ∨
        ∃ mark digits, characters = mark ++ digits ∧ ExponentStart mark ∧
          (∀ c ∈ digits, Text.isDigit c = true) ∧ complete = !digits.isEmpty) := by
  cases text with
  | nil =>
      cases scanned
      exact ⟨rfl, .inl ⟨rfl, rfl⟩⟩
  | cons mark more =>
      rw [scanExponent] at scanned
      split at scanned
      · rename_i marks
        obtain ⟨sign, after, rfl, signed, dropped⟩ := @sign_split more
        simp only [dropped, List.drop_left, NumberScan.mk.injEq] at scanned
        obtain ⟨rfl, rfl, rfl⟩ := scanned
        refine ⟨by simp, .inr ⟨mark :: sign, _, rfl, ?_, fun _ => List.mem_takeWhile_imp, rfl⟩⟩
        rcases signed with rfl | rfl | rfl
        · exact .plain marks
        · exact .signed marks (.inl rfl)
        · exact .signed marks (.inr rfl)
      · cases scanned
        exact ⟨rfl, .inl ⟨rfl, rfl⟩⟩

theorem plainNumber_of_parts {digits fraction tail : List Char} {first : Char}
    (digit : Text.isDigit first = true) (leads : (digits ++ (fraction ++ tail)).head? = some first)
    (all : ∀ c ∈ digits, Text.isDigit c = true)
    (form : fraction = [] ∧ Stops (· == '.') tail ∨
      ∃ more, fraction = '.' :: more ∧ ∀ c ∈ more, Text.isDigit c = true)
    (stops : Stops Text.isDigit tail) : PlainNumber (digits ++ fraction) := by
  have nonempty : digits ≠ [] := by
    rintro rfl
    rcases form with ⟨rfl, -⟩ | ⟨more, rfl, -⟩
    · exact Bool.false_ne_true ((stops first leads).symm.trans digit)
    · cases leads
      cases digit
  rcases form with ⟨rfl, -⟩ | ⟨more, rfl, others⟩
  · rw [List.append_nil]
    exact .whole nonempty all
  · exact .point nonempty all others

/-- A number that is taken off a text is whole, or it breaks off. -/
theorem scanNumber_form {first : Char} (digit : Text.isDigit first = true)
    (leads : text.head? = some first) :
    text = (scanNumber text).characters ++ (scanNumber text).rest ∧
      if (scanNumber text).complete then NumberText (scanNumber text).characters
      else Unfinished (scanNumber text).characters := by
  generalize scanned : scanNumber text = number
  obtain ⟨characters, rest, complete⟩ := number
  dsimp only
  obtain ⟨digits, fraction, exponent, tail, rfl, rfl, all, form, stops, found⟩ :=
    scanNumber_parts scanned
  have plain := plainNumber_of_parts digit leads all form stops
  obtain ⟨rfl, ⟨rfl, rfl⟩ | ⟨mark, power, rfl, marks, others, rfl⟩⟩ := scanExponent_form found
  · refine ⟨by simp, ?_⟩
    rw [List.append_nil]
    exact .plain plain
  · refine ⟨by simp, ?_⟩
    rw [← List.append_assoc]
    cases power with
    | nil =>
        rw [List.append_nil]
        exact .exponent plain marks
    | cons c power => exact .exponent plain marks (List.cons_ne_nil c power) others

/-- A token that is read is spelled by what stands before the rest. -/
theorem lexemeAt_spells (found : lexemeAt text = .found token rest) :
    ∃ spelling, text = spelling ++ rest ∧ Spells spelling token := by
  cases text with
  | nil => cases found
  | cons c more =>
      by_cases digit : Text.isDigit c = true
      · rw [lexemeAt_digit digit] at found
        obtain ⟨form, kind⟩ := @scanNumber_form (c :: more) c digit rfl
        split at found
        · rename_i complete
          cases found
          rw [if_pos complete] at kind
          exact ⟨_, form, .number kind⟩
        · unfold faultAt at found
          split at found <;> cases found
      · rw [lexemeAt] at found
        split at found
        · rename_i single
          split at found
          · rename_i content after read
            cases found
            rw [quoted?_spells read, single]
            exact ⟨_, rfl, .string _⟩
          · cases found
        · split at found
          · rename_i double
            split at found
            · rename_i content after read
              cases found
              rw [quoted?_spells read]
              exact ⟨_, rfl, .quotedName double _⟩
            · cases found
          · split at found
            · rename_i start
              cases found
              refine ⟨c :: more.takeWhile isWordPart, ?_, .word start fun _ => List.mem_takeWhile_imp⟩
              rw [List.cons_append, List.takeWhile_append_dropWhile]
            · split at found
              · rename_i mark after read
                cases found
                exact symbol?_spells read
              · cases found

theorem PlainNumber.parts (plain : PlainNumber front) :
    ∃ digits fraction, front = digits ++ fraction ∧ digits ≠ [] ∧
      (∀ c ∈ digits, Text.isDigit c = true) ∧
      (fraction = [] ∨ ∃ more, fraction = '.' :: more ∧ ∀ c ∈ more, Text.isDigit c = true) := by
  cases plain with
  | whole nonempty all => exact ⟨front, [], (List.append_nil _).symm, nonempty, all, .inl rfl⟩
  | point nonempty all others => exact ⟨_, _, rfl, nonempty, all, .inr ⟨_, rfl, others⟩⟩

theorem scanExponent_unfinished (marks : ExponentStart mark) :
    scanExponent (mark ++ [' ']) = ⟨mark, [' '], false⟩ ∧
      Stops Text.isDigit (mark ++ [' ']) ∧ Stops (· == '.') (mark ++ [' ']) := by
  have apart {mark : Char} (marks : marksExponent mark = true) : mark = 'e' ∨ mark = 'E' := by
    simpa [marksExponent] using marks
  cases marks with
  | plain marks => rcases apart marks with rfl | rfl <;> exact ⟨rfl, stops_cons rfl, stops_cons rfl⟩
  | signed marks signs =>
      rcases apart marks with rfl | rfl <;> rcases signs with rfl | rfl <;>
        exact ⟨rfl, stops_cons rfl, stops_cons rfl⟩

/-- With a blank after it, a number that breaks off is a fault. -/
theorem Unfinished.faulty (broken : Unfinished lost) :
    nextLexeme (lost ++ [' ']) = .faulty (.unexpectedCharacter ' ') := by
  obtain ⟨plain, marks⟩ := broken
  obtain ⟨digits, fraction, rfl, nonempty, all, form⟩ := plain.parts
  obtain ⟨scanned, noDigit, noPoint⟩ := scanExponent_unfinished marks
  have whole := scanNumber_of_form all (form.imp (⟨·, noPoint⟩) id) noDigit scanned
  obtain ⟨c, more, rfl⟩ := List.exists_cons_of_ne_nil nonempty
  have digit := all c List.mem_cons_self
  rw [List.cons_append] at whole
  rw [List.append_assoc, List.append_assoc, List.cons_append, nextLexeme_digit digit,
    lexemeAt_digit digit, whole]
  rfl

theorem Unfinished.ne_nil (broken : Unfinished lost) : lost ≠ [] := by
  obtain ⟨plain, marks⟩ := broken
  obtain ⟨c, others, rfl, -⟩ := plain.leading
  exact List.cons_ne_nil c _

theorem lexemeAt_finished (ended : lexemeAt text = .finished) : text = [] ∨ Unfinished text := by
  cases text with
  | nil => exact .inl rfl
  | cons c more =>
      by_cases digit : Text.isDigit c = true
      · rw [lexemeAt_digit digit] at ended
        obtain ⟨form, kind⟩ := @scanNumber_form (c :: more) c digit rfl
        split at ended
        · cases ended
        · rename_i broken
          unfold faultAt at ended
          split at ended
          · rename_i none
            rw [if_neg broken] at kind
            rw [none, List.append_nil] at form
            rw [form]
            exact .inr kind
          · cases ended
      · rw [lexemeAt] at ended
        repeat' split at ended
        all_goals cases ended

/-- Where no token is left there is a gap, or a number that breaks off. -/
theorem nextLexeme_finished (ended : nextLexeme text = .finished) :
    (LastGap text ∧ nextLexeme (text ++ [' ']) = .finished) ∨
      ∃ gap lost, text = gap ++ lost ∧ Gap gap ∧ Unfinished lost ∧
        nextLexeme (text ++ [' ']) = .faulty (.unexpectedCharacter ' ') := by
  obtain ⟨gap, split, kind⟩ := afterGap_gap text
  rcases lexemeAt_finished ended with none | broken
  · rw [none, List.append_nil] at split
    have last : LastGap text := by
      rw [split]
      exact kind.elim .closed And.right
    refine .inl ⟨last, ?_⟩
    rw [nextLexeme, last.skipped]
    rfl
  · have blank : Gap gap := kind.resolve_right fun last => broken.ne_nil last.1
    refine .inr ⟨gap, _, split, blank, broken, ?_⟩
    rw [nextLexeme, split, List.append_assoc, blank.skipped]
    exact broken.faulty

theorem nextLexeme_spells (found : nextLexeme text = .found token rest) :
    ∃ gap spelling, text = gap ++ (spelling ++ rest) ∧ Gap gap ∧ Spells spelling token := by
  obtain ⟨spelling, form, spells⟩ := lexemeAt_spells found
  obtain ⟨gap, split, blank | ⟨none, -⟩⟩ := afterGap_gap text
  · exact ⟨gap, spelling, by rw [← form, ← split], blank, spells⟩
  · rw [nextLexeme, none] at found
    cases found

/-- A token ends before a blank as it ends before what follows it. -/
theorem nextLexeme_blank (found : nextLexeme text = .found token rest) :
    nextLexeme (text ++ [' ']) = .found token (rest ++ [' ']) ∧ rest.length < text.length := by
  obtain ⟨front, test, rfl, nonempty, blank, stops, reads⟩ := nextLexeme_split found
  have ends : Stops test (rest ++ [' ']) := by
    cases rest with
    | nil => exact stops_cons blank
    | cons c more => exact stops_cons (stops c rfl)
  refine ⟨by rw [List.append_assoc, reads _ ends], ?_⟩
  have taken := List.length_pos_of_ne_nil nonempty
  rw [List.length_append]
  omega

/-! ## Whole texts -/

/-- What becomes of the characters of a text without a fault: tokens account for all of them, and
a blank after the text is no fault; or a number breaks off at the end, and the blank is one. -/
theorem readTokens_accounts {limit : Nat} (enough : text.length < limit)
    (clean : (readTokens limit text).fault = none) :
    ∃ covered lost, text = covered ++ lost ∧ Accounts covered (readTokens limit text).tokens ∧
      ∀ wider, text.length + 1 < wider →
        if (readTokens wider (text ++ [' '])).fault = none then lost = [] else Unfinished lost := by
  induction limit generalizing text with
  | zero => exact absurd enough (Nat.not_lt_zero _)
  | succ limit ih =>
      rw [readTokens] at clean ⊢
      cases next : nextLexeme text with
      | faulty fault =>
          rw [next] at clean
          cases clean
      | finished =>
          rcases nextLexeme_finished next with ⟨last, again⟩ | ⟨gap, lost, rfl, blank, broken, faulty⟩
          · refine ⟨text, [], (List.append_nil _).symm, .last last, fun wider room => ?_⟩
            obtain ⟨wider, rfl⟩ : ∃ fewer, wider = fewer + 1 := ⟨wider - 1, by omega⟩
            rw [readTokens, again]
            exact rfl
          · refine ⟨gap, lost, rfl, .last (.closed blank), fun wider room => ?_⟩
            obtain ⟨wider, rfl⟩ : ∃ fewer, wider = fewer + 1 := ⟨wider - 1, by omega⟩
            rw [readTokens, faulty]
            exact broken
      | found token rest =>
          obtain ⟨again, shorter⟩ := nextLexeme_blank next
          obtain ⟨gap, spelling, rfl, blank, spells⟩ := nextLexeme_spells next
          rw [next] at clean
          obtain ⟨covered, lost, rfl, accounts, told⟩ := ih (by omega) clean
          refine ⟨gap ++ (spelling ++ covered), lost, by simp, .token blank spells accounts,
            fun wider room => ?_⟩
          obtain ⟨wider, rfl⟩ : ∃ fewer, wider = fewer + 1 := ⟨wider - 1, by omega⟩
          rw [readTokens, again]
          exact told wider (by omega)

/-- Where a text has no fault, its tokens account for all of it but a number that breaks off at the
end; there is such a number just where a blank after the text is a fault. No statement is read
from a text with a fault. -/
theorem tokens_account (text : String) :
    ((tokensOf text).fault = none →
      ∃ covered lost, text.toList = covered ++ lost ∧ Accounts covered (tokensOf text).tokens ∧
        if (tokensOf (text ++ " ")).fault = none then lost = [] else Unfinished lost) ∧
      ∀ parsed, parse text = .ok parsed → (tokensOf text).fault = none := by
  constructor
  · intro clean
    obtain ⟨covered, lost, form, accounts, told⟩ := readTokens_accounts (Nat.lt_succ_self _) clean
    refine ⟨covered, lost, form, accounts, ?_⟩
    have longer : (text ++ " ").toList = text.toList ++ [' '] := by simp
    rw [tokensOf, longer]
    exact told _ (by simp)
  · intro parsed read
    obtain ⟨⟨found, count⟩, stated, -⟩ := bind_eq_ok_iff.mp read
    exact (parseStatement_ends stated).1

theorem unfinished_number_lost :
    tokensOf "SELECT a FROM t 1e" = tokensOf "SELECT a FROM t" ∧
      (parse "SELECT a FROM t 1e").isOk = true ∧
      tokensOf "1e" = ⟨[], none⟩ ∧ ¬ Accounts "1e".toList [] := by
  refine ⟨by decide +kernel, by decide +kernel, by decide +kernel, fun accounts => ?_⟩
  have letters : "1e".toList = ['1', 'e'] := by decide
  rw [letters] at accounts
  exact absurd accounts.lastGap.leading (by decide)

end Coffer.Language
