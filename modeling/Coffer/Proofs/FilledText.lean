import Coffer.Proofs.Legible
import Coffer.Proofs.Spacing
import Coffer.Proofs.TokenEnds

namespace Coffer.Language

/-! # Filled text

A text whose placeholders are replaced by other texts, set off by spaces, reads as its tokens
with the placeholders replaced by those of the other texts.
-/

variable {text rest : List Char} {token : Token} {limit : Nat} {fillings : List (List Char)}
variable {fillers : List (List Token)} {tokens : List Token} {test : Char → Bool}

/-- A text with its placeholders replaced by texts, in order, each set off by spaces. -/
def fillWithin : (limit : Nat) → (fillings : List (List Char)) → List Char → List Char
  | 0, _, text => text
  | limit + 1, fillings, text =>
    match nextLexeme text with
    | .found token rest =>
      let front := text.take (text.length - rest.length)
      match token, fillings with
      | .symbol .question, filling :: others =>
        front.dropLast ++ ' ' :: (filling ++ ' ' :: fillWithin limit others rest)
      | _, _ => front ++ fillWithin limit fillings rest
    | _ => text

/-- Tokens with the placeholders replaced by tokens, in order. -/
def fillTokens : (fillers : List (List Token)) → List Token → List Token
  | filler :: others, .symbol .question :: rest => filler ++ fillTokens others rest
  | fillers, token :: rest => token :: fillTokens fillers rest
  | _, [] => []

/-- Whether a text reads as some tokens before a space, whatever comes after it. -/
def Fills (filling : List Char) (filler : List Token) : Prop :=
  ∀ rest expected, ReadsAs rest expected → ReadsAs (filling ++ ' ' :: rest) (filler ++ expected)

theorem take_front {front : List Char} : (front ++ rest).take ((front ++ rest).length - rest.length) = front := by
  rw [List.length_append, Nat.add_sub_cancel, List.take_left]

theorem fillWithin_cases (found : nextLexeme text = .found token rest) (limit : Nat) (fillings : List (List Char)) :
    (∃ front, text = front ++ rest ∧ front ≠ [] ∧ (token ≠ .symbol .question ∨ fillings = []) ∧
      fillWithin (limit + 1) fillings text = front ++ fillWithin limit fillings rest) ∨
    ∃ gap filling others, text = gap ++ '?' :: rest ∧ token = .symbol .question ∧
      fillings = filling :: others ∧
      fillWithin (limit + 1) fillings text =
        gap ++ ' ' :: (filling ++ ' ' :: fillWithin limit others rest) := by
  rw [fillWithin, found]
  dsimp only
  split
  · rename_i filling others
    obtain ⟨gap, rfl, -⟩ := nextLexeme_question found
    refine .inr ⟨gap, filling, others, rfl, rfl, rfl, ?_⟩
    have front : gap ++ '?' :: rest = (gap ++ ['?']) ++ rest := by simp
    rw [front, take_front, List.dropLast_concat]
  · rename_i other
    obtain ⟨front, -, rfl, nonempty, -⟩ := nextLexeme_split found
    refine .inl ⟨front, rfl, nonempty, ?_, by rw [take_front]⟩
    rcases fillings with _ | ⟨filling, others⟩
    · exact .inr rfl
    · exact .inl fun question => other filling others question rfl

theorem stops_append {front : List Char} (nonempty : front ≠ []) :
    Stops test (front ++ text) ↔ Stops test front := by
  obtain ⟨c, others, rfl⟩ := List.exists_cons_of_ne_nil nonempty
  exact ⟨fun stops d head => stops d head, fun stops d head => stops d head⟩

/-- What does not go on with what stands before a text does not do so once the text is filled. -/
theorem stops_fillWithin (blank : test ' ' = false) (stops : Stops test text) :
    Stops test (fillWithin limit fillings text) := by
  cases limit with
  | zero => exact stops
  | succ limit =>
      cases found : nextLexeme text with
      | finished => rwa [fillWithin, found]
      | faulty fault => rwa [fillWithin, found]
      | found token rest =>
          rcases fillWithin_cases found limit fillings with
            ⟨front, rfl, nonempty, -, filled⟩ | ⟨gap, filling, others, rfl, -, -, filled⟩
          · rw [filled]
            exact (stops_append nonempty).mpr ((stops_append nonempty).mp stops)
          · rw [filled]
            cases gap with
            | nil => exact stops_cons blank
            | cons c more => exact fun d head => stops d head

theorem ReadsAs.of_finished (found : nextLexeme text = .finished) : ReadsAs text [] := by
  intro limit enough
  cases limit with
  | zero => exact absurd enough (Nat.not_lt_zero _)
  | succ limit => rw [readTokens, found]

theorem ReadsAs.skip {gap : List Char} (skips : ∀ other, nextLexeme (gap ++ other) = nextLexeme other)
    (reads : ReadsAs text tokens) : ReadsAs (gap ++ text) tokens := by
  intro limit enough
  rw [List.length_append] at enough
  cases limit with
  | zero => exact absurd enough (Nat.not_lt_zero _)
  | succ limit =>
      have read := reads (limit + 1) (by omega)
      rw [readTokens] at read
      rw [readTokens, skips, read]

theorem fillTokens_nil : fillTokens fillers [] = [] := by
  cases fillers <;> rfl

theorem fillTokens_cons (apart : token ≠ .symbol .question ∨ fillers = []) :
    fillTokens fillers (token :: tokens) = token :: fillTokens fillers tokens := by
  rw [fillTokens]
  rintro filler others rfl rfl
  exact apart.elim (· rfl) (List.cons_ne_nil _ _)

/-- A filled text reads as the filled tokens. -/
theorem readsAs_filled (fills : List.Forall₂ Fills fillings fillers)
    (read : readTokens limit text = ⟨tokens, none⟩) (enough : text.length < limit) :
    ReadsAs (fillWithin limit fillings text) (fillTokens fillers tokens) := by
  induction limit generalizing text tokens fillings fillers with
  | zero => exact absurd enough (Nat.not_lt_zero _)
  | succ limit ih =>
      rw [readTokens] at read
      cases found : nextLexeme text with
      | finished =>
          rw [found] at read
          cases read
          rw [fillWithin, found, fillTokens_nil]
          exact .of_finished found
      | faulty fault =>
          rw [found] at read
          cases read
      | found token rest =>
          rw [found] at read
          simp only [Tokens.mk.injEq] at read
          obtain ⟨rfl, clean⟩ := read
          have further : readTokens limit rest = ⟨(readTokens limit rest).tokens, none⟩ := by
            rw [← clean]
          rcases fillWithin_cases found limit fillings with
            ⟨front, rfl, nonempty, apart, filled⟩ | ⟨gap, filling, others, rfl, rfl, rfl, filled⟩
          · obtain ⟨other, test, split, -, blank, stops, reads⟩ := nextLexeme_split found
            obtain rfl := List.append_cancel_right split
            rw [filled, fillTokens_cons (apart.imp_right fun none => ?_)]
            · refine .token (reads _ (stops_fillWithin blank stops)) nonempty (ih fills further ?_)
              have taken := List.length_pos_of_ne_nil nonempty
              rw [List.length_append] at enough
              omega
            · subst none
              exact List.forall₂_nil_left_iff.mp fills
          · obtain ⟨filler, more, first, later, rfl⟩ := List.forall₂_cons_left_iff.mp fills
            obtain ⟨between, split, skips⟩ := nextLexeme_question found
            obtain rfl := List.append_cancel_right split
            rw [filled]
            refine .skip skips (.space (first _ _ (ih later further ?_)))
            simp only [List.length_append, List.length_cons] at enough
            omega

/-- What is rendered fills the place of a placeholder with its tokens. -/
theorem fills_marks {marks : List Mark} (spaced : Spaced marks)
    (legible : ∀ mark ∈ marks, mark.isLegible = true) :
    Fills (writtenCharacters marks) (tokensIn marks) := by
  intro rest expected reads
  obtain ⟨chain, plain⟩ := spaced
  induction marks with
  | nil => exact reads.space
  | cons mark others ih =>
      obtain ⟨follows, chain⟩ := List.isChain_cons.mp chain
      obtain ⟨first, legible⟩ := List.forall_mem_cons.mp legible
      obtain ⟨firstPlain, plain⟩ := List.forall_mem_cons.mp plain
      have further := ih legible chain plain
      by_cases solid : mark = .space
      · subst solid
        exact further.space
      · have spacedOut : ∀ next ∈ (others ++ [Mark.space]).head?, mark.adjoins next = true := by
          cases others with
          | nil =>
              rintro next ⟨⟩
              exact adjoins_of_closes rfl
          | cons next more => exact follows
        have allPlain : ∀ next ∈ others ++ [Mark.space], next.IsPlain := by
          intro next member
          rcases List.mem_append.mp member with among | last
          · exact plain next among
          · rw [List.mem_singleton.mp last]
            trivial
        obtain ⟨piece, same, nonempty, found⟩ :=
          nextLexeme_mark first firstPlain allPlain spacedOut solid
        obtain ⟨front, test, split, -, -, stops, again⟩ := nextLexeme_split found
        obtain rfl := List.append_cancel_right split
        have written : writtenCharacters (others ++ [Mark.space]) = writtenCharacters others ++ [' '] :=
          List.flatMap_append
        have ends : Stops test (writtenCharacters others ++ ' ' :: rest) := by
          rw [written] at stops
          intro c head
          refine stops c ?_
          cases shown : writtenCharacters others with
          | nil => simpa [shown] using head
          | cons d more => simpa [shown] using head
        have form : writtenCharacters (mark :: others) ++ ' ' :: rest =
            mark.written.toList ++ (writtenCharacters others ++ ' ' :: rest) := by
          rw [writtenCharacters, List.flatMap_cons, List.append_assoc]
          rfl
        rw [tokensIn, List.flatMap_cons, same, form]
        exact further.token (again _ ends) nonempty

/-- A text with its placeholders replaced by texts, in order, each set off by spaces. -/
def fill (text : String) (fillings : List String) : String :=
  let characters := text.toList
  String.ofList (fillWithin (characters.length + 1) (fillings.map String.toList) characters)

theorem tokensOf_fill {text : String} {fillings : List String}
    (fills : List.Forall₂ Fills (fillings.map String.toList) fillers)
    (clean : (tokensOf text).fault = none) :
    tokensOf (fill text fillings) = ⟨fillTokens fillers (tokensOf text).tokens, none⟩ := by
  have read : readTokens (text.toList.length + 1) text.toList = ⟨(tokensOf text).tokens, none⟩ := by
    rw [← clean]
    rfl
  rw [tokensOf, fill, String.toList_ofList]
  exact readsAs_filled fills read (Nat.lt_succ_self _) _ (Nat.lt_succ_self _)

end Coffer.Language
