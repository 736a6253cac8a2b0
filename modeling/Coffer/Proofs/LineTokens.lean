import Coffer.Proofs.TokenSources

namespace Coffer.Language

/-! # Tokens line by line

No token ends with the end of a line, and no comment goes on beyond it. So a text that is made of
whole lines is read up to its end before anything that follows it, unless a quoted token is open
there.
-/

variable {text rest front mark spelling lost : List Char} {token : Token} {c : Char}

/-- Whether a text is made of whole lines: it is empty, or ends with the end of a line. -/
def Whole (text : List Char) : Prop :=
  ∀ c ∈ text.getLast?, c = '\n'

theorem whole_line : Whole (front ++ ['\n']) := by
  simp [Whole]

theorem Whole.behind (whole : Whole (front ++ rest)) : Whole rest := by
  intro c last
  refine whole c ?_
  rw [List.getLast?_append, Option.mem_def.mp last]
  rfl

theorem not_whole_of_not_mem (nonempty : text ≠ []) (within : '\n' ∉ text) : ¬ Whole text := by
  intro whole
  have last := whole _ (List.getLast?_eq_getLast_of_ne_nil nonempty)
  exact within (last ▸ List.getLast_mem nonempty)

/-! ## Ends of tokens -/

theorem not_mem_of_digits (all : ∀ c ∈ text, Text.isDigit c = true) : '\n' ∉ text :=
  fun member => absurd (all '\n' member) (by decide)

theorem PlainNumber.not_mem (plain : PlainNumber text) : '\n' ∉ text := by
  cases plain with
  | whole _ all => exact not_mem_of_digits all
  | point _ all others =>
      simp [not_mem_of_digits all, not_mem_of_digits others]

theorem ExponentStart.not_mem (marks : ExponentStart mark) : '\n' ∉ mark := by
  have apart {mark : Char} (marks : marksExponent mark = true) : '\n' ≠ mark := by
    rintro rfl
    cases marks
  cases marks with
  | plain marks => simpa using apart marks
  | signed marks signs => rcases signs with rfl | rfl <;> simpa using apart marks

theorem Spells.not_whole (spells : Spells spelling token) : ¬ Whole spelling := by
  have quoted (quote : Char) (content : String) (other : quote ≠ '\n') :
      ¬ Whole (quotedText quote content) := by
    intro whole
    exact other (whole quote List.getLast?_concat)
  cases spells with
  | string content => exact quoted '\x27' content (by decide)
  | quotedName quotes name =>
      rcases quotes with rfl | rfl
      · exact quoted '\x22' name (by decide)
      · exact quoted '\x60' name (by decide)
  | number form =>
      cases form with
      | plain plain =>
          obtain ⟨c, more, form, -⟩ := plain.leading
          exact not_whole_of_not_mem (form ▸ List.cons_ne_nil c more) plain.not_mem
      | exponent plain marks nonempty all =>
          refine not_whole_of_not_mem (by simp [nonempty]) ?_
          simp [plain.not_mem, marks.not_mem, not_mem_of_digits all]
  | word start parts =>
      refine not_whole_of_not_mem (List.cons_ne_nil _ _) fun member => ?_
      rcases List.mem_cons.mp member with rfl | later
      · exact absurd start (by decide)
      · exact absurd (parts '\n' later) (by decide)
  | symbol mark => cases mark <;> exact not_whole_of_not_mem (by decide) (by decide)
  | doubled => exact not_whole_of_not_mem (by decide) (by decide)

theorem Unfinished.not_whole (broken : Unfinished lost) : ¬ Whole lost := by
  obtain ⟨plain, marks⟩ := broken
  obtain ⟨c, more, form, -⟩ := plain.leading
  exact not_whole_of_not_mem (by simp [form]) (by simp [plain.not_mem, marks.not_mem])

/-- A comment at the end of whole lines ends with them. -/
theorem LastGap.closed_of_whole (last : LastGap text) (whole : Whole text) : Gap text := by
  cases last with
  | closed gap => exact gap
  | @opened front line gap within =>
      have outside : '\n' ∉ '-' :: '-' :: line := by simpa using within
      exact absurd whole.behind (not_whole_of_not_mem (List.cons_ne_nil _ _) outside)

/-! ## What is read before more text -/

theorem nextLexeme_before (whole : Whole text) (found : nextLexeme text = .found token rest) :
    Whole rest ∧ rest.length < text.length ∧
      ∀ more, nextLexeme (text ++ more) = .found token (rest ++ more) := by
  obtain ⟨-, shorter⟩ := nextLexeme_blank found
  obtain ⟨gap, spelling, split, -, spells⟩ := nextLexeme_spells found
  have later : Whole (spelling ++ rest) := by
    rw [split] at whole
    exact whole.behind
  refine ⟨later.behind, shorter, fun more => ?_⟩
  obtain ⟨front, test, form, -, -, stops, reads⟩ := nextLexeme_split found
  cases rest with
  | nil =>
      rw [List.append_nil] at later
      exact absurd later spells.not_whole
  | cons c others =>
      rw [form, List.append_assoc]
      exact reads _ (stops_cons (stops c rfl))

theorem nextLexeme_after (whole : Whole text) (finished : nextLexeme text = .finished)
    (more : List Char) : nextLexeme (text ++ more) = nextLexeme more := by
  rcases nextLexeme_finished finished with ⟨last, -⟩ | ⟨gap, lost, rfl, -, broken, -⟩
  · rw [nextLexeme, (last.closed_of_whole whole).skipped, nextLexeme]
  · exact absurd whole.behind broken.not_whole

theorem readTokens_found {limit : Nat} (found : nextLexeme text = .found token rest) :
    readTokens (limit + 1) text =
      ⟨token :: (readTokens limit rest).tokens, (readTokens limit rest).fault⟩ := by
  rw [readTokens, found]

theorem readTokens_enough {limit other : Nat} (enough : text.length < limit)
    (room : text.length < other) : readTokens limit text = readTokens other text := by
  induction limit generalizing text other with
  | zero => exact absurd enough (Nat.not_lt_zero _)
  | succ limit ih =>
      obtain ⟨other, rfl⟩ : ∃ fewer, other = fewer + 1 := ⟨other - 1, by omega⟩
      cases next : nextLexeme text with
      | finished => rw [readTokens, readTokens, next]
      | faulty fault => rw [readTokens, readTokens, next]
      | found token rest =>
          obtain ⟨-, shorter⟩ := nextLexeme_blank next
          have same : readTokens limit rest = readTokens other rest := ih (by omega) (by omega)
          rw [readTokens_found next, readTokens_found next, same]

theorem readTokens_append {limit wider : Nat} {more : List Char} (whole : Whole text)
    (enough : text.length < limit) (room : text.length + more.length < wider)
    (clean : (readTokens limit text).fault = none) :
    readTokens wider (text ++ more) =
      ⟨(readTokens limit text).tokens ++ (readTokens wider more).tokens,
        (readTokens wider more).fault⟩ := by
  induction limit generalizing text wider with
  | zero => exact absurd enough (Nat.not_lt_zero _)
  | succ limit ih =>
      obtain ⟨wider, rfl⟩ : ∃ fewer, wider = fewer + 1 := ⟨wider - 1, by omega⟩
      cases next : nextLexeme text with
      | faulty fault =>
          rw [readTokens, next] at clean
          cases clean
      | finished =>
          have none : readTokens (limit + 1) text = ⟨[], none⟩ := by rw [readTokens, next]
          have same : readTokens (wider + 1) (text ++ more) = readTokens (wider + 1) more := by
            rw [readTokens, readTokens, nextLexeme_after whole next]
          rw [same, none, List.nil_append]
      | found token rest =>
          obtain ⟨later, shorter, before⟩ := nextLexeme_before whole next
          rw [readTokens_found next] at clean ⊢
          have same : readTokens wider more = readTokens (wider + 1) more :=
            readTokens_enough (by omega) (by omega)
          rw [readTokens_found (before more), ih later (by omega) (by omega) clean, same,
            List.cons_append]

/-- Whole lines without a fault are read before whatever follows them as they are read alone. -/
theorem tokensOf_append {first second : String} (whole : Whole first.toList)
    (clean : (tokensOf first).fault = none) :
    tokensOf (first ++ second) =
      ⟨(tokensOf first).tokens ++ (tokensOf second).tokens, (tokensOf second).fault⟩ := by
  have split : (first ++ second).toList = first.toList ++ second.toList := String.toList_append
  have length : (first ++ second).toList.length = first.toList.length + second.toList.length := by
    rw [split, List.length_append]
  have same : readTokens ((first ++ second).toList.length + 1) second.toList =
      tokensOf second := readTokens_enough (by omega) (Nat.lt_succ_self _)
  rw [← same, tokensOf, split]
  rw [split] at length
  exact readTokens_append whole (Nat.lt_succ_self _) (by omega) clean

theorem gap_of_blanks (blank : ∀ c ∈ text, Text.isBlank c = true) : Gap text := by
  induction text with
  | nil => exact .nil
  | cons c more ih =>
      obtain ⟨first, others⟩ := List.forall_mem_cons.mp blank
      exact .blank first (ih others)

theorem tokensOf_blanks {blanks : String} (blank : ∀ c ∈ blanks.toList, Text.isBlank c = true) :
    tokensOf blanks = ⟨[], none⟩ := by
  have skipped : afterGap false (blanks.toList ++ []) = [] := (gap_of_blanks blank).skipped
  rw [List.append_nil] at skipped
  rw [tokensOf, readTokens, nextLexeme, skipped]
  rfl

end Coffer.Language
