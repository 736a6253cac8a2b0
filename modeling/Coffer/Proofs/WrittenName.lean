import Mathlib.Data.List.TakeWhile
import Coffer.Proofs.Lexing

namespace Coffer

/-! # Names in statement text

Whether a name is written without quotes goes by the word characters of Unicode, and where a word
ends by letters and numerals. The two disagree on marks, connectors and joiners: these may stand in
a bare name, but no word goes on with them.
-/

namespace Text

variable {c : Char} {first second : Ranges}

/-- Whether a character goes with the letters of a word without being one: a mark that is not
alphabetic, a connector or a joiner. -/
def attaches (c : Char) : Bool :=
  Ranges.has (marks ++ connectors) c

/-- The characters with which a word goes on, and those in ASCII that do not matter here. -/
def wordRanges : Ranges :=
  (0, 127) :: (lettersBeyondAscii ++ (digitsBeyondAscii ++ otherNumerals))

theorem has_append : Ranges.has (first ++ second) c = (first.has c || second.has c) :=
  List.any_append

/-- Goes through two sets of ranges side by side, from the lowest on, as long as they are apart. -/
def sweepsApart : (limit : Nat) → Ranges → Ranges → Bool
  | _, [], _ => true
  | _, _ :: _, [] => true
  | 0, _ :: _, _ :: _ => false
  | limit + 1, range :: first, other :: second =>
    if range.2 < other.1 then sweepsApart limit first (other :: second)
    else decide (other.2 < range.1) && sweepsApart limit (range :: first) second

def Ascending (ranges : Ranges) : Prop :=
  ranges.Pairwise fun range later => range.1 ≤ later.1

def Separate (first second : Ranges) : Prop :=
  ∀ range ∈ first, ∀ other ∈ second, range.2 < other.1 ∨ other.2 < range.1

theorem apart_of_separate (separate : Separate first second) :
    Language.apart first second = true := by
  refine List.all_eq_true.mpr fun range inside => List.all_eq_true.mpr fun other beyond => ?_
  simpa using separate range inside other beyond

/-- What is below the lowest range is below all of them. -/
theorem separate_of_sweepsApart {limit : Nat} (firstAscending : Ascending first)
    (secondAscending : Ascending second) (swept : sweepsApart limit first second = true) :
    Separate first second := by
  induction limit, first, second using sweepsApart.induct with
  | case1 => nofun
  | case2 => nofun
  | case3 => cases swept
  | case4 limit range first other second below ih =>
      rw [sweepsApart, if_pos below] at swept
      have least := (List.pairwise_cons.mp secondAscending).1
      refine List.forall_mem_cons.mpr ⟨List.forall_mem_cons.mpr ⟨.inl below, fun later member => ?_⟩,
        ih firstAscending.of_cons secondAscending swept⟩
      exact .inl (below.trans_le (least later member))
  | case5 limit range first other second overlaps ih =>
      rw [sweepsApart, if_neg overlaps, Bool.and_eq_true, decide_eq_true_eq] at swept
      obtain ⟨above, rest⟩ := swept
      have least := (List.pairwise_cons.mp firstAscending).1
      have further := ih firstAscending secondAscending.of_cons rest
      refine fun before member => List.forall_mem_cons.mpr ⟨.inr ?_, further before member⟩
      rcases List.mem_cons.mp member with rfl | later
      · exact above
      · exact above.trans_le (least before later)

/-- Whether ranges in order are apart from other ranges in order. -/
def apartInOrder (first second : Ranges) : Bool :=
  decide (first.IsChain fun range later => range.1 ≤ later.1) &&
    decide (second.IsChain fun range later => range.1 ≤ later.1) &&
    sweepsApart (first.length + second.length) first second

theorem separate_of_apartInOrder (inOrder : apartInOrder first second = true) :
    Separate first second := by
  have trans : IsTrans (Nat × Nat) fun range later => range.1 ≤ later.1 :=
    ⟨fun _ _ _ => Nat.le_trans⟩
  simp only [apartInOrder, Bool.and_eq_true, decide_eq_true_eq] at inOrder
  obtain ⟨⟨firstChain, secondChain⟩, swept⟩ := inOrder
  exact separate_of_sweepsApart (List.isChain_iff_pairwise.mp firstChain)
    (List.isChain_iff_pairwise.mp secondChain) swept

theorem attaching_apart : Language.apart (marks ++ connectors) wordRanges = true := by
  have inOrder : ∀ attaching ∈ [marks, connectors],
      ∀ table ∈ [[(0, 127)], lettersBeyondAscii, digitsBeyondAscii, otherNumerals],
        apartInOrder attaching table = true := by decide +kernel
  have separate : Separate (marks ++ connectors) wordRanges := by
    have all : wordRanges = [[(0, 127)], lettersBeyondAscii, digitsBeyondAscii,
      otherNumerals].flatten := by simp [wordRanges]
    have both : marks ++ connectors = [marks, connectors].flatten := by simp
    rw [all, both]
    intro range inside other beyond
    obtain ⟨attaching, listed, member⟩ := List.mem_flatten.mp inside
    obtain ⟨table, tabled, present⟩ := List.mem_flatten.mp beyond
    exact separate_of_apartInOrder (inOrder attaching listed table tabled) range member other present
  exact apart_of_separate separate

theorem isAscii_eq_has : isAscii c = Ranges.has [(0, 127)] c := by
  simp [isAscii, Ranges.has, Nat.lt_succ_iff]

theorem isAlphanumeric_beyond (beyond : isAscii c = false) :
    isAlphanumeric c =
      (lettersBeyondAscii.has c || (digitsBeyondAscii.has c || otherNumerals.has c)) := by
  simp [isAlphanumeric, isAlphabetic, isNumeral, beyond]

theorem wordRanges_has :
    wordRanges.has c = (isAscii c || (lettersBeyondAscii.has c ||
      (digitsBeyondAscii.has c || otherNumerals.has c))) := by
  rw [wordRanges, ← List.singleton_append, has_append, has_append, has_append, isAscii_eq_has]

end Text

namespace Language

variable {name : String} {rest : List Char} {c : Char}

theorem ne_underscore_of_beyond (beyond : Text.isAscii c = false) : (c == '_') = false := by
  rw [beq_eq_false_iff_ne]
  rintro rfl
  cases beyond

theorem not_attaches_of_ascii (ascii : Text.isAscii c = true) : Text.attaches c = false := by
  by_contra attached
  have outside := not_has_of_apart Text.attaching_apart (Bool.not_eq_false _ ▸ attached)
  rw [Text.wordRanges_has, ascii] at outside
  cases outside

/-- Among the characters of bare names, words go on with all but those that attach to letters. -/
theorem isWordPart_of_wordCharacter (word : Text.isWordCharacter c = true) :
    isWordPart c = !Text.attaches c := by
  by_cases ascii : Text.isAscii c = true
  · rw [not_attaches_of_ascii ascii]
    simpa [isWordPart, Text.isWordCharacter, Text.isAlphanumeric, Text.isAlphabetic,
      Text.isNumeral, ascii] using word
  · have beyond : Text.isAscii c = false := Bool.eq_false_iff.mpr ascii
    rw [isWordPart, ne_underscore_of_beyond beyond, Bool.or_false, Text.isAlphanumeric_beyond beyond]
    cases attached : Text.attaches c with
    | true =>
        have outside := not_has_of_apart Text.attaching_apart attached
        rw [Text.wordRanges_has, beyond, Bool.false_or] at outside
        rw [outside]
        rfl
    | false =>
        rw [Text.attaches, Text.has_append, Bool.or_eq_false_iff] at attached
        simp only [Text.isWordCharacter, beyond, Bool.false_eq_true, if_false, attached.1, attached.2,
          Bool.or_false, Bool.and_eq_true, Text.isAlphabetic] at word
        rw [← Bool.or_assoc, word.2]
        rfl

theorem wordStart_of_plain {first : Char} (plain : (Text.isLatinLetter first || first == '_') = true) :
    isWordStart first = true ∧ Text.isWordCharacter first = true := by
  rcases Bool.or_eq_true_iff.mp plain with latin | line
  · have ascii : Text.isAscii first = true := by
      simp only [Text.isLatinLetter, Bool.or_eq_true, Bool.and_eq_true, decide_eq_true_eq] at latin
      simp only [Text.isAscii, decide_eq_true_eq]
      omega
    simp [isWordStart, Text.isWordCharacter, Text.isAlphabetic, ascii, latin]
  · rw [beq_iff_eq.mp line]
    exact ⟨rfl, rfl⟩

/-- A bare name is no keyword, starts as words do, and is made of word characters. -/
theorem bareName_characters (bare : isBareName name = true) :
    Keyword.ofWord? name = none ∧ ∃ first others, name.toList = first :: others ∧
      isWordStart first = true ∧ ∀ c ∈ first :: others, isWordPart c = !Text.attaches c := by
  rw [isBareName] at bare
  split at bare
  · cases bare
  · rename_i first others characters
    simp only [Bool.and_eq_true, List.all_eq_true, Option.isNone_iff_eq_none] at bare
    obtain ⟨⟨plain, words⟩, free⟩ := bare
    obtain ⟨start, word⟩ := wordStart_of_plain plain
    have all : ∀ c ∈ first :: others, Text.isWordCharacter c = true :=
      List.forall_mem_cons.mpr ⟨word, words⟩
    exact ⟨free, first, others, characters, start, fun c member =>
      isWordPart_of_wordCharacter (all c member)⟩

/-- A bare name without characters that attach to letters is one word. -/
theorem isPlainWord_of_unattached (bare : isBareName name = true)
    (none : ∀ c ∈ name.toList, Text.attaches c = false) : isPlainWord name = true := by
  obtain ⟨free, first, others, characters, start, parts⟩ := bareName_characters bare
  rw [characters] at none
  have whole : others.all isWordPart = true := by
    refine List.all_eq_true.mpr fun c member => ?_
    rw [parts c (List.mem_cons_of_mem _ member), none c (List.mem_cons_of_mem _ member)]
    rfl
  rw [isPlainWord, characters]
  simp only [start, whole, free, Option.isNone_none, Bool.and_self]

/-- Of a bare name with such a character the reader takes only what stands before it. -/
theorem nextLexeme_cut (rest : List Char) (bare : isBareName name = true)
    (attached : ∃ c ∈ name.toList, Text.attaches c = true) :
    ∃ token after, nextLexeme (name.toList ++ rest) = .found token after ∧
      token ≠ .identifier name := by
  obtain ⟨-, first, others, characters, start, parts⟩ := bareName_characters bare
  rw [characters] at attached
  have cut : others.dropWhile isWordPart ≠ [] := by
    intro none
    obtain ⟨c, member, attached⟩ := attached
    have ends : isWordPart c = false := by rw [parts c member, attached]; rfl
    rcases List.mem_cons.mp member with rfl | member
    · simp [isWordPart, isWordStart, Text.isAlphanumeric] at start ends
      simp [ends] at start
    · exact Bool.false_ne_true (ends.symm.trans (List.dropWhile_eq_nil_iff.mp none c member))
  obtain ⟨next, more, behind⟩ := List.exists_cons_of_ne_nil cut
  have stops : Stops isWordPart (others.dropWhile isWordPart ++ rest) := by
    rw [behind]
    have ends := List.head?_dropWhile_not isWordPart others
    rw [behind] at ends
    exact stops_cons (by simpa using ends)
  have taken : ∀ part ∈ others.takeWhile isWordPart, isWordPart part = true :=
    fun _ => List.mem_takeWhile_imp
  have read := nextLexeme_word start taken stops
  rw [← List.append_assoc, List.cons_append, List.takeWhile_append_dropWhile, ← characters] at read
  refine ⟨_, _, read, fun same => ?_⟩
  rw [wordToken] at same
  split at same
  · cases same
  · have shorter := congrArg (fun word => word.toList.length) (Token.identifier.inj same)
    have sizes := congrArg List.length (List.takeWhile_append_dropWhile (p := isWordPart) (l := others))
    simp [characters, behind] at shorter sizes
    omega

/-- A name reads back before the end of the text and before what stands behind names in statements,
unless it is written bare and has a character that attaches to letters. -/
theorem name_reads_back_iff (name : String) (rest : List Char)
    (ends : ∀ c ∈ rest.head?, c ∈ [' ', ',', '.', '(', ')']) :
    (nextLexeme ((nameText name).toList ++ rest) = .found (.identifier name) rest ↔
      (isBareName name = true → ∀ c ∈ name.toList, Text.attaches c = false)) ∧
    (tokensOf (nameText name) = ⟨[.identifier name], none⟩ ↔
      (isBareName name = true → ∀ c ∈ name.toList, Text.attaches c = false)) := by
  by_cases intact : isBareName name = true → ∀ c ∈ name.toList, Text.attaches c = false
  · have legible : (Mark.name name).isLegible = true := by
      change (!isBareName name || isPlainWord name) = true
      cases bare : isBareName name with
      | false => rfl
      | true => exact isPlainWord_of_unattached bare (intact bare)
    have stops : Stops (fun c => isWordPart c || c == '\x22') rest := by
      have none : [' ', ',', '.', '(', ')'].any (fun c => isWordPart c || c == '\x22') = false := rfl
      exact fun c head => Bool.eq_false_iff.mpr (List.any_eq_false.mp none c (ends c head))
    obtain ⟨before, -⟩ := nextLexeme_name legible stops
    obtain ⟨alone, nonempty⟩ : nextLexeme ((nameText name).toList ++ []) =
        .found (.identifier name) [] ∧ (nameText name).toList ≠ [] := nextLexeme_name legible nofun
    have reads := ReadsAs.token alone nonempty .nil
    rw [List.append_nil] at reads
    exact ⟨iff_of_true before intact, iff_of_true reads.tokensOf intact⟩
  · obtain ⟨bare, attached⟩ := Classical.not_imp.mp intact
    have attached : ∃ c ∈ name.toList, Text.attaches c = true := by
      simpa only [not_forall, Bool.not_eq_false, exists_prop] using attached
    have written : nameText name = name := if_pos bare
    rw [written]
    refine ⟨iff_of_false (fun read => ?_) intact, iff_of_false (fun read => ?_) intact⟩
    · obtain ⟨token, after, found, other⟩ := nextLexeme_cut rest bare attached
      rw [found] at read
      exact other (Lexeme.found.inj read).1
    · obtain ⟨token, after, found, other⟩ := nextLexeme_cut [] bare attached
      rw [List.append_nil] at found
      simp only [tokensOf, readTokens, found, Tokens.mk.injEq, List.cons.injEq] at read
      exact other read.1.1

/-- A letter with an accent that is a character of its own is written bare, and reads as the letter
alone. -/
theorem accented_name_not_read_back :
    (∀ c ∈ ['('].head?, c ∈ [' ', ',', '.', '(', ')']) ∧
    nextLexeme ((nameText "a\u0301").toList ++ ['(']) ≠ .found (.identifier "a\u0301") ['('] ∧
    tokensOf (nameText "a\u0301") ≠ ⟨[.identifier "a\u0301"], none⟩ := by
  have ends : ∀ c ∈ ['('].head?, c ∈ [' ', ',', '.', '(', ')'] := by simp
  have bare : isBareName "a\u0301" = true := by decide +kernel
  have accented : '\u0301' ∈ "a\u0301".toList := by simp
  have accent : Text.attaches '\u0301' = true := by decide +kernel
  have attached : ¬ (isBareName "a\u0301" = true →
      ∀ c ∈ "a\u0301".toList, Text.attaches c = false) := by
    intro intact
    have none := intact bare '\u0301' accented
    rw [accent] at none
    cases none
  obtain ⟨before, alone⟩ := name_reads_back_iff "a\u0301" ['('] ends
  exact ⟨ends, mt before.mp attached, mt alone.mp attached⟩

end Language

end Coffer
