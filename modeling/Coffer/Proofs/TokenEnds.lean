import Mathlib.Data.List.TakeWhile
import Coffer.Proofs.Lexing

namespace Coffer.Language

/-! # Where tokens end

A token at the head of a text ends where the next character does not go on with it. So it is
read again before any other text, unless that starts with a character that goes on with it.
No token but a quoted one goes on with a blank.
-/

variable {text rest body content characters : List Char} {token : Token} {quote : Char}
variable {inComment complete : Bool} {test : Char → Bool}

/-! ## Gaps -/

theorem afterGap_of_blank {c : Char} (blank : Text.isBlank c = true) :
    afterGap false (c :: text) = afterGap false text := by
  have other : c ≠ '-' := by
    rintro rfl
    exact absurd blank (by decide)
  rw [afterGap]
  · rw [if_pos blank]
  · exact fun _ same _ => other same

theorem afterGap_split (visible : afterGap inComment text = body) (nonempty : body ≠ []) :
    ∃ gap, text = gap ++ body ∧ ∀ other, afterGap inComment (gap ++ other) = afterGap false other := by
  fun_induction afterGap inComment text with
  | case1 => exact absurd visible.symm nonempty
  | case2 c more ih =>
      obtain ⟨gap, rfl, reads⟩ := ih visible
      exact ⟨c :: gap, rfl, fun other => by rw [List.cons_append, afterGap, reads]⟩
  | case3 more ih =>
      obtain ⟨gap, rfl, reads⟩ := ih visible
      exact ⟨'-' :: '-' :: gap, rfl, fun other => by
        rw [List.cons_append, List.cons_append, afterGap, reads]⟩
  | case4 c more single blank ih =>
      obtain ⟨gap, rfl, reads⟩ := ih visible
      exact ⟨c :: gap, rfl, fun other => (afterGap_of_blank blank).trans (reads other)⟩
  | case5 c more single dark => exact ⟨[], visible, fun other => rfl⟩

theorem afterGap_afterGap : afterGap false (afterGap inComment text) = afterGap inComment text := by
  fun_induction afterGap inComment text with
  | case1 => rfl
  | case2 c more ih => exact ih
  | case3 more ih => exact ih
  | case4 c more single blank ih => exact ih
  | case5 c more single dark =>
      rw [afterGap]
      · rw [if_neg dark]
      · exact single

/-! ## Quoted text and numbers -/

theorem quoted?_split (found : quoted? quote text = some (content, rest)) :
    ∃ front, text = front ++ rest ∧ Stops (· == quote) rest ∧
      ∀ other, Stops (· == quote) other → quoted? quote (front ++ other) = some (content, other) := by
  have closing : ∀ other, Stops (· == quote) other → quoted? quote (quote :: other) = some ([], other) := by
    intro other stops
    cases other with
    | nil => simp [quoted?]
    | cons next more =>
        have apart : next ≠ quote := by simpa using stops next rfl
        simp [quoted?, apart]
  fun_induction quoted? quote text generalizing content with
  | case1 => cases found
  | case2 => 
    cases found
    exact ⟨[quote], rfl, by simp [Stops], closing⟩
  | case3 => cases found
  | case4 more ih =>
      obtain ⟨⟨inner, after⟩, read, same⟩ := Option.map_eq_some_iff.mp found
      cases same
      obtain ⟨front, rfl, stops, reads⟩ := ih read
      refine ⟨quote :: quote :: front, rfl, stops, fun other ends => ?_⟩
      simp [quoted?, reads other ends]
  | case5 next more apart =>
      cases found
      refine ⟨[quote], rfl, ?_, closing⟩
      rintro c ⟨⟩
      simpa using apart
  | case6 c next more apart ih =>
      obtain ⟨⟨inner, after⟩, read, same⟩ := Option.map_eq_some_iff.mp found
      cases same
      obtain ⟨front, form, stops, reads⟩ := ih read
      refine ⟨c :: front, by rw [form]; rfl, stops, fun other ends => ?_⟩
      cases front with
      | nil => exact absurd (reads [] (by simp [Stops])) (by simp [quoted?])
      | cons first others =>
          rw [List.cons_append, List.cons_append, quoted?, if_neg apart, ← List.cons_append,
            reads other ends]
          rfl

/-- Whether a character starts an exponent. -/
def marksExponent (c : Char) : Bool :=
  c == 'e' || c == 'E'

theorem stops_dropWhile : Stops test (text.dropWhile test) := by
  intro c head
  have first := List.head?_dropWhile_not test text
  rw [head] at first
  simpa using first

theorem scanExponent_of_form {mark : Char} {sign digits : List Char}
    (marks : marksExponent mark = true) (signed : sign = [] ∨ sign = ['+'] ∨ sign = ['-'])
    (nonempty : digits ≠ []) (all : ∀ digit ∈ digits, Text.isDigit digit = true)
    (stops : Stops Text.isDigit rest) :
    scanExponent (mark :: (sign ++ (digits ++ rest))) = ⟨mark :: (sign ++ digits), rest, true⟩ := by
  have taken : ((sign ++ (digits ++ rest)).take 1).filter (fun c => c == '+' || c == '-') = sign := by
    rcases signed with rfl | rfl | rfl
    · obtain ⟨digit, others, rfl⟩ := List.exists_cons_of_ne_nil nonempty
      have first := all digit List.mem_cons_self
      simp [digit_ne first (show Text.isDigit '+' = false by rfl),
        digit_ne first (show Text.isDigit '-' = false by rfl)]
    · rfl
    · rfl
  rw [marksExponent] at marks
  rw [scanExponent, if_pos marks]
  simp only [taken, List.drop_left, takeWhile_run all stops, dropWhile_run all stops]
  simp [nonempty]

theorem sign_split :
    ∃ sign after, text = sign ++ after ∧ (sign = [] ∨ sign = ['+'] ∨ sign = ['-']) ∧
      (text.take 1).filter (fun c => c == '+' || c == '-') = sign := by
  cases text with
  | nil => exact ⟨[], [], rfl, .inl rfl, rfl⟩
  | cons c tail =>
      by_cases plus : c = '+'
      · exact ⟨['+'], tail, by rw [plus]; rfl, .inr (.inl rfl), by simp [plus]⟩
      · by_cases minus : c = '-'
        · exact ⟨['-'], tail, by rw [minus]; rfl, .inr (.inr rfl), by simp [minus]⟩
        · exact ⟨[], c :: tail, rfl, .inl rfl, by simp [plus, minus]⟩

theorem scanExponent_split (scanned : scanExponent text = ⟨characters, rest, true⟩) :
    text = characters ++ rest ∧
      (characters = [] ∧ Stops marksExponent rest ∨
        ∃ mark others, characters = mark :: others ∧ marksExponent mark = true ∧
          Stops Text.isDigit rest ∧ ∀ other, Stops Text.isDigit other →
            scanExponent (characters ++ other) = ⟨characters, other, true⟩) := by
  cases text with
  | nil =>
      cases scanned
      exact ⟨rfl, .inl ⟨rfl, nofun⟩⟩
  | cons mark more =>
      rw [scanExponent] at scanned
      split at scanned
      · rename_i marks
        obtain ⟨sign, after, rfl, signed, dropped⟩ := @sign_split more
        simp only [dropped, List.drop_left, NumberScan.mk.injEq, Bool.not_eq_true',
          List.isEmpty_eq_false_iff] at scanned
        obtain ⟨rfl, rfl, nonempty⟩ := scanned
        refine ⟨?_, .inr ⟨mark, _, rfl, marks, stops_dropWhile, fun other stops => ?_⟩⟩
        · rw [List.cons_append, List.append_assoc, List.takeWhile_append_dropWhile]
        · rw [List.cons_append, List.append_assoc]
          exact scanExponent_of_form marks signed nonempty (fun _ => List.mem_takeWhile_imp) stops
      · rename_i none
        cases scanned
        refine ⟨rfl, .inl ⟨rfl, ?_⟩⟩
        rintro c ⟨⟩
        exact Bool.eq_false_iff.mpr none

theorem scanNumber_of_form {digits fraction tail : List Char}
    (all : ∀ digit ∈ digits, Text.isDigit digit = true)
    (form : fraction = [] ∧ Stops (· == '.') tail ∨
      ∃ more, fraction = '.' :: more ∧ ∀ digit ∈ more, Text.isDigit digit = true)
    (stops : Stops Text.isDigit tail) (scanned : scanExponent tail = ⟨characters, rest, complete⟩) :
    scanNumber (digits ++ (fraction ++ tail)) =
      ⟨digits ++ (fraction ++ characters), rest, complete⟩ := by
  rcases form with ⟨rfl, noPoint⟩ | ⟨more, rfl, others⟩
  · rw [scanNumber, List.nil_append, takeWhile_run all stops, dropWhile_run all stops]
    cases tail with
    | nil => simp [scanned]
    | cons c after =>
        have other : c ≠ '.' := by simpa using noPoint c rfl
        simp [other, scanned]
  · have point : Stops Text.isDigit ('.' :: (more ++ tail)) := by
      rintro c ⟨⟩
      rfl
    rw [scanNumber, List.cons_append, takeWhile_run all point, dropWhile_run all point]
    simp [takeWhile_run others stops, scanned]

/-- What a number is made of: digits, perhaps a fraction, and perhaps an exponent. -/
theorem scanNumber_parts (scanned : scanNumber text = ⟨characters, rest, complete⟩) :
    ∃ digits fraction exponent tail, text = digits ++ (fraction ++ tail) ∧
      characters = digits ++ (fraction ++ exponent) ∧
      (∀ digit ∈ digits, Text.isDigit digit = true) ∧
      (fraction = [] ∧ Stops (· == '.') tail ∨
        ∃ more, fraction = '.' :: more ∧ ∀ digit ∈ more, Text.isDigit digit = true) ∧
      Stops Text.isDigit tail ∧ scanExponent tail = ⟨exponent, rest, complete⟩ := by
  have whole := List.takeWhile_append_dropWhile (p := Text.isDigit) (l := text)
  have stops : Stops Text.isDigit (text.dropWhile Text.isDigit) := stops_dropWhile
  rw [scanNumber] at scanned
  split at scanned
  · rename_i more point
    have fraction := List.takeWhile_append_dropWhile (p := Text.isDigit) (l := more)
    have dropped : ('.' :: more).drop ('.' :: more.takeWhile Text.isDigit).length =
        more.dropWhile Text.isDigit := by
      rw [List.length_cons, List.drop_succ_cons]
      nth_rewrite 2 [← fraction]
      rw [List.drop_left]
    simp only [point, dropped, NumberScan.mk.injEq] at scanned
    obtain ⟨rfl, rest, complete⟩ := scanned
    refine ⟨_, _, _, more.dropWhile Text.isDigit, ?_, rfl, fun _ => List.mem_takeWhile_imp,
      .inr ⟨_, rfl, fun _ => List.mem_takeWhile_imp⟩, stops_dropWhile, ?_⟩
    · rw [List.cons_append, fraction, ← point, whole]
    · rw [← rest, ← complete]
  · rename_i pointless
    simp only [List.length_nil, List.drop_zero, List.nil_append, NumberScan.mk.injEq] at scanned
    obtain ⟨rfl, rest, complete⟩ := scanned
    refine ⟨_, [], _, text.dropWhile Text.isDigit, whole.symm, rfl,
      fun _ => List.mem_takeWhile_imp, .inl ⟨rfl, ?_⟩, stops, ?_⟩
    · intro c head
      obtain ⟨more, same⟩ := List.head?_eq_some_iff.mp head
      refine beq_eq_false_iff_ne.mpr fun point => pointless more ?_
      rw [same, point]
    · rw [← rest, ← complete]

theorem scanNumber_split (scanned : scanNumber text = ⟨characters, rest, true⟩) :
    text = characters ++ rest ∧ ∃ test : Char → Bool, test ' ' = false ∧ Stops test rest ∧
      ∀ other, Stops test other → scanNumber (characters ++ other) = ⟨characters, other, true⟩ := by
  obtain ⟨digits, fraction, exponent, tail, rfl, rfl, all, form, stops, found⟩ :=
    scanNumber_parts scanned
  obtain ⟨rfl, ⟨rfl, noMark⟩ | ⟨mark, more, rfl, marks, ends, reads⟩⟩ := scanExponent_split found
  · rw [List.nil_append] at stops form found ⊢
    rw [List.append_nil]
    refine ⟨by rw [List.append_assoc], ?_⟩
    have exponentless {other : List Char} (none : Stops marksExponent other) :
        scanExponent other = ⟨[], other, true⟩ := by
      cases other with
      | nil => rfl
      | cons c others => rw [scanExponent, ← marksExponent, none c rfl, if_neg Bool.false_ne_true]
    rcases form with ⟨rfl, noPoint⟩ | ⟨more, rfl, others⟩
    · refine ⟨continuesNumber, rfl, fun c head => ?_, fun other ends => ?_⟩
      · simp only [continuesNumber, stops c head, noPoint c head, Bool.false_or]
        exact noMark c head
      · have none : ∀ c, other.head? = some c → (Text.isDigit c = false ∧ (c == '.') = false) ∧
            marksExponent c = false := by
          intro c head
          have stopped := ends c head
          simp only [continuesNumber, Bool.or_eq_false_iff, and_assoc] at stopped
          simpa only [marksExponent, Bool.or_eq_false_iff, and_assoc] using stopped
        have again := scanNumber_of_form all (.inl ⟨rfl, fun c head => (none c head).1.2⟩)
          (fun c head => (none c head).1.1) (exponentless fun c head => (none c head).2)
        simpa only [List.append_nil, List.nil_append] using again
    · refine ⟨fun c => Text.isDigit c || marksExponent c, rfl, fun c head => ?_, fun other ends => ?_⟩
      · simp only [stops c head, noMark c head, Bool.or_self]
      · have none := fun c head => Bool.or_eq_false_iff.mp (ends c head)
        have again := scanNumber_of_form all (.inr ⟨more, rfl, others⟩)
          (fun c head => (none c head).1) (exponentless fun c head => (none c head).2)
        rwa [List.append_nil, ← List.append_assoc] at again
  · refine ⟨by simp, Text.isDigit, rfl, ends, fun other otherEnds => ?_⟩
    have leads : Text.isDigit mark = false ∧ (mark == '.') = false := by
      rcases Bool.or_eq_true_iff.mp marks with same | same <;> rw [beq_iff_eq.mp same] <;> decide
    have fractional : fraction = [] ∧ Stops (· == '.') (mark :: more ++ other) ∨
        ∃ more, fraction = '.' :: more ∧ ∀ digit ∈ more, Text.isDigit digit = true :=
      form.imp_left fun absent => ⟨absent.1, stops_cons leads.2⟩
    have again := scanNumber_of_form all fractional (stops_cons leads.1) (reads other otherEnds)
    simpa only [List.append_assoc, List.cons_append] using again

theorem scanNumber_ne_nil {c : Char} (digit : Text.isDigit c = true)
    (scanned : scanNumber (c :: text) = ⟨characters, rest, true⟩) : characters ≠ [] := by
  rintro rfl
  obtain ⟨digits, fraction, exponent, tail, form, none, -, -, stops, -⟩ := scanNumber_parts scanned
  obtain ⟨rfl, rfl, -⟩ : digits = [] ∧ fraction = [] ∧ exponent = [] := by simpa using none.symm
  rw [List.nil_append, List.nil_append] at form
  exact Bool.false_ne_true ((stops c (form ▸ rfl)).symm.trans digit)

/-! ## Tokens -/

/-- Whether a text reads as something up to a rest by what stands before the rest, whatever the
rest is, so long as it starts with none of some characters. A blank is none of them. -/
def ReadsBefore {α : Type} (read : List Char → α) (result : List Char → α)
    (text rest : List Char) : Prop :=
  ∃ (front : List Char) (test : Char → Bool), text = front ++ rest ∧ front ≠ [] ∧
    test ' ' = false ∧ Stops test rest ∧ ∀ other, Stops test other → read (front ++ other) = result other

theorem ReadsBefore.anything {α : Type} {read result : List Char → α} (front : List Char)
    (nonempty : front ≠ []) (reads : ∀ other, read (front ++ other) = result other) :
    ReadsBefore read result (front ++ rest) rest :=
  ⟨front, fun _ => false, rfl, nonempty, rfl, fun _ _ => rfl, fun other _ => reads other⟩

theorem stops_iff {c : Char} : Stops (· == c) rest ↔ ∀ more, rest ≠ c :: more := by
  cases rest with
  | nil => simp [Stops]
  | cons first others => simp [Stops]

theorem symbol?_split {mark : Symbol} (found : symbol? text = some (mark, rest)) :
    ReadsBefore symbol? (fun other => some (mark, other)) text rest := by
  revert found
  fun_cases symbol? text
  case case3 more unequal =>
    rintro ⟨⟩
    refine ⟨['='], (· == '='), rfl, by simp, rfl, stops_iff.mpr unequal, fun other stops => ?_⟩
    rw [List.singleton_append, symbol?]
    exact stops_iff.mp stops
  case case5 more unequal =>
    rintro ⟨⟩
    refine ⟨['>'], (· == '='), rfl, by simp, rfl, stops_iff.mpr unequal, fun other stops => ?_⟩
    rw [List.singleton_append, symbol?]
    exact stops_iff.mp stops
  case case8 more unequal ungreater =>
    rintro ⟨⟩
    refine ⟨['<'], fun c => c == '=' || c == '>', rfl, by simp, rfl, fun c head => ?_,
      fun other stops => ?_⟩
    · simp only [stops_iff.mpr unequal c head, stops_iff.mpr ungreater c head, Bool.or_self]
    · have none := fun c head => Bool.or_eq_false_iff.mp (stops c head)
      rw [List.singleton_append, symbol?]
      · exact stops_iff.mp fun c head => (none c head).1
      · exact stops_iff.mp fun c head => (none c head).2
  case case13 more unequal =>
    rintro ⟨⟩
    refine ⟨['!'], (· == '='), rfl, by simp, rfl, stops_iff.mpr unequal, fun other stops => ?_⟩
    rw [List.singleton_append, symbol?]
    exact stops_iff.mp stops
  case case2 | case4 | case6 | case7 | case12 =>
    rintro ⟨⟩
    exact .anything [_, _] (by simp) fun other => rfl
  case case1 | case9 | case10 | case11 | case14 | case15 | case16 | case17 | case18 =>
    rintro ⟨⟩
    exact .anything [_] (by simp) fun other => rfl
  case case19 => intro found; cases found

theorem lexemeAt_split (found : lexemeAt text = .found token rest) :
    ReadsBefore lexemeAt (fun other => .found token other) text rest := by
  cases text with
  | nil => cases found
  | cons c more =>
      rw [lexemeAt] at found
      split at found
      · rename_i single
        split at found
        · rename_i content after read
          cases found
          obtain ⟨front, rfl, stops, reads⟩ := quoted?_split read
          refine ⟨c :: front, (· == c), rfl, by simp, by rw [single]; rfl, stops, fun other ends => ?_⟩
          rw [List.cons_append, lexemeAt, if_pos single, reads other ends]
        · cases found
      · rename_i unquoted
        split at found
        · rename_i double
          split at found
          · rename_i content after read
            cases found
            obtain ⟨front, rfl, stops, reads⟩ := quoted?_split read
            refine ⟨c :: front, (· == c), rfl, by simp, ?_, stops, fun other ends => ?_⟩
            · rcases double with rfl | rfl <;> rfl
            · rw [List.cons_append, lexemeAt, if_neg unquoted, if_pos double, reads other ends]
          · cases found
        · rename_i unnamed
          split at found
          · rename_i digit
            cases scanned : scanNumber (c :: more) with
            | mk characters after complete =>
                simp only [scanned] at found
                cases complete with
                | false =>
                    rw [if_neg Bool.false_ne_true] at found
                    cases after <;> cases found
                | true =>
                    cases found
                    obtain ⟨form, test, blank, stops, reads⟩ := scanNumber_split scanned
                    have nonempty := scanNumber_ne_nil digit scanned
                    obtain ⟨first, others, rfl⟩ := List.exists_cons_of_ne_nil nonempty
                    cases form
                    refine ⟨c :: others, test, rfl, nonempty, blank, stops, fun other ends => ?_⟩
                    rw [List.cons_append, lexemeAt, if_neg unquoted, if_neg unnamed, if_pos digit,
                      ← List.cons_append, reads other ends]
                    rfl
          · rename_i noDigit
            split at found
            · rename_i start
              cases found
              have word := List.takeWhile_append_dropWhile (p := isWordPart) (l := more)
              refine ⟨c :: more.takeWhile isWordPart, isWordPart, ?_, by simp, rfl, stops_dropWhile,
                fun other ends => ?_⟩
              · rw [List.cons_append, word]
              · have all : ∀ part ∈ more.takeWhile isWordPart, isWordPart part = true :=
                  fun _ => List.mem_takeWhile_imp
                rw [List.cons_append, lexemeAt, if_neg unquoted, if_neg unnamed, if_neg noDigit,
                  if_pos start, takeWhile_run all ends, dropWhile_run all ends]
            · rename_i wordless
              split at found
              · rename_i mark after read
                cases found
                obtain ⟨front, test, form, nonempty, blank, stops, reads⟩ := symbol?_split read
                obtain ⟨first, others, rfl⟩ := List.exists_cons_of_ne_nil nonempty
                cases form
                refine ⟨c :: others, test, rfl, nonempty, blank, stops, fun other ends => ?_⟩
                rw [List.cons_append, lexemeAt, if_neg unquoted, if_neg unnamed, if_neg noDigit,
                  if_neg wordless, ← List.cons_append, reads other ends]
              · cases found

theorem afterGap_eq_self_iff {c : Char} :
    afterGap false (c :: text) = c :: text ↔
      Text.isBlank c = false ∧ (c = '-' → ∀ more, text ≠ '-' :: more) := by
  constructor
  · intro same
    have shorter {flag : Bool} {whole : List Char} (visible : afterGap flag whole = c :: text) :
        (c :: text).length ≤ whole.length := by
      obtain ⟨gap, rfl, -⟩ := afterGap_split visible (List.cons_ne_nil c text)
      simp
    refine ⟨Bool.eq_false_iff.mpr fun blank => ?_, ?_⟩
    · rw [afterGap_of_blank blank] at same
      exact absurd (shorter same) (by simp)
    · rintro rfl more rfl
      rw [afterGap] at same
      exact absurd (shorter same) (by simp only [List.length_cons]; omega)
  · rintro ⟨dark, single⟩
    rw [afterGap]
    · rw [if_neg (Bool.eq_false_iff.mp dark)]
    · exact fun more same form => single same more form

/-- A token is read again before whatever does not go on with it. -/
theorem nextLexeme_split (found : nextLexeme text = .found token rest) :
    ReadsBefore nextLexeme (fun other => .found token other) text rest := by
  have fixed := @afterGap_afterGap text false
  rw [nextLexeme] at found
  obtain ⟨front, test, form, nonempty, blank, stops, reads⟩ := lexemeAt_split found
  obtain ⟨gap, split, skips⟩ := @afterGap_split text _ false rfl (by simp [form, nonempty])
  obtain ⟨c, others, rfl⟩ := List.exists_cons_of_ne_nil nonempty
  rw [form] at split fixed
  obtain ⟨dark, uncommented⟩ := afterGap_eq_self_iff.mp fixed
  -- Only a lone minus could become the start of a comment.
  refine ⟨gap ++ c :: others, fun d => test d || (c :: others == ['-'] && d == '-'), ?_, by simp,
    ?_, fun d head => ?_, fun other ends => ?_⟩
  · rw [split, List.append_assoc]
  · simp [blank]
  · have lone : c :: others = ['-'] → d ≠ '-' := by
      rintro same rfl
      obtain ⟨rfl, rfl⟩ := List.cons.inj same
      exact beq_eq_false_iff_ne.mp (stops_iff.mpr (uncommented rfl) '-' head) rfl
    simpa [stops d head] using lone
  · have both := fun d head => Bool.or_eq_false_iff.mp (ends d head)
    have stays : afterGap false (c :: (others ++ other)) = c :: (others ++ other) := by
      refine afterGap_eq_self_iff.mpr ⟨dark, fun minus more same => ?_⟩
      cases others with
      | nil =>
          have none := (both '-' (by rw [← List.nil_append other, same]; rfl)).2
          simp [minus] at none
      | cons second further =>
          obtain ⟨rfl, -⟩ := List.cons.inj same
          exact uncommented minus _ rfl
    rw [nextLexeme, List.append_assoc, skips, List.cons_append, stays, ← List.cons_append]
    exact reads other fun d head => (both d head).1

theorem symbol?_question (found : symbol? text = some (.question, rest)) : text = '?' :: rest := by
  revert found
  fun_cases symbol? text
  case case14 =>
    rintro ⟨⟩
    rfl
  all_goals rintro ⟨⟩

theorem lexemeAt_question (found : lexemeAt text = .found (.symbol .question) rest) :
    text = '?' :: rest := by
  have word (name : String) : wordToken name ≠ .symbol .question := by
    rw [wordToken]
    split <;> simp
  cases text with
  | nil => cases found
  | cons c more =>
      simp only [lexemeAt] at found
      split at found
      · split at found <;> cases found
      · split at found
        · split at found <;> cases found
        · split at found
          · split at found
            · cases found
            · unfold faultAt at found
              split at found <;> cases found
          · split at found
            · exact absurd (Lexeme.found.inj found).1 (word _)
            · split at found
              · rename_i read
                cases found
                exact symbol?_question read
              · cases found

theorem nextLexeme_question (found : nextLexeme text = .found (.symbol .question) rest) :
    ∃ gap, text = gap ++ '?' :: rest ∧ ∀ other, nextLexeme (gap ++ other) = nextLexeme other := by
  rw [nextLexeme] at found
  have body := lexemeAt_question found
  obtain ⟨gap, form, skips⟩ := afterGap_split body (by simp)
  exact ⟨gap, form, fun other => congrArg lexemeAt (skips other)⟩

end Coffer.Language
