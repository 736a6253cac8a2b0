import Mathlib.Data.List.Forall2
import Mathlib.Data.List.Infix
import Coffer.Predicate.Compilation
import Coffer.Proofs.Result

namespace Coffer

/-! # Pieces of patterns

A text matches a pattern just where it can be cut into consecutive pieces, one for each character
of the pattern in order. A pattern is matched from the end of the text, for all places where the
rest of it may start; what comes out is the same as a search over all cuts.
-/

open Language (Expression)

namespace Pattern

variable {text later : List Char} {pattern : List Char} {character c : Char}

/-- Whether a character of a pattern takes a piece of a text. -/
inductive Takes : Char → List Char → Prop where
  | run (piece : List Char) : Takes '%' piece
  | one (c : Char) : Takes '_' [c]
  | letter {expected c : Char} (plain : expected ≠ '%' ∧ expected ≠ '_')
      (same : Text.sameLetter expected c = true) : Takes expected [c]

/-- Whether characters can be cut into consecutive pieces, one for each character of a pattern. -/
def Cuts (pattern text : List Char) : Prop :=
  ∃ pieces : List (List Char), pieces.flatten = text ∧ List.Forall₂ Takes pattern pieces

/-- Whether a text splits as the text of a pattern has it. -/
def Splits (pattern text : String) : Prop :=
  Cuts pattern.toList text.toList

/-! ## One character after another -/

theorem takes_other (other : character ≠ '%') {piece : List Char} :
    Takes character piece ↔ ∃ c, piece = [c] ∧ takes (partOf character) c = true := by
  constructor
  · rintro (_ | c | @⟨_, c, ⟨_, noLine⟩, same⟩)
    · exact absurd rfl other
    · exact ⟨c, rfl, rfl⟩
    · exact ⟨c, rfl, by rwa [partOf, if_neg other, if_neg noLine]⟩
  · rintro ⟨c, rfl, taken⟩
    by_cases line : character = '_'
    · subst line
      exact .one c
    · rw [partOf, if_neg other, if_neg line] at taken
      exact .letter ⟨other, line⟩ taken

theorem cuts_nil : Cuts [] text ↔ text = [] := by
  constructor
  · rintro ⟨pieces, rfl, ⟨⟩⟩
    rfl
  · rintro rfl
    exact ⟨[], rfl, .nil⟩

theorem cuts_cons :
    Cuts (character :: pattern) text ↔
      ∃ piece later, text = piece ++ later ∧ Takes character piece ∧ Cuts pattern later := by
  constructor
  · rintro ⟨pieces, rfl, ⟨⟩⟩
    rename_i piece pieces taken others
    exact ⟨piece, pieces.flatten, rfl, taken, pieces, rfl, others⟩
  · rintro ⟨piece, _, rfl, taken, pieces, rfl, others⟩
    exact ⟨piece :: pieces, rfl, .cons taken others⟩

/-- A percent sign leaves any end of the text to the rest of the pattern. -/
theorem cuts_run : Cuts ('%' :: pattern) text ↔ ∃ later ∈ text.tails, Cuts pattern later := by
  rw [cuts_cons]
  constructor
  · rintro ⟨piece, later, rfl, -, rest⟩
    exact ⟨later, (List.mem_tails later _).mpr (List.suffix_append piece later), rest⟩
  · rintro ⟨later, member, rest⟩
    obtain ⟨piece, rfl⟩ := (List.mem_tails later text).mp member
    exact ⟨piece, later, rfl, .run piece, rest⟩

theorem cuts_other (other : character ≠ '%') :
    Cuts (character :: pattern) text ↔
      ∃ c later, text = c :: later ∧ takes (partOf character) c = true ∧ Cuts pattern later := by
  simp only [cuts_cons, takes_other other]
  constructor
  · rintro ⟨_, later, rfl, ⟨c, rfl, taken⟩, rest⟩
    exact ⟨c, later, rfl, taken, rest⟩
  · rintro ⟨c, later, rfl, taken, rest⟩
    exact ⟨[c], later, rfl, ⟨c, rfl, taken⟩, rest⟩

/-! ## The search over all ends -/

/-- Matches a pattern from the start of a text by trying all ends for each run. -/
def searches : Pattern → List Char → Bool
  | [], text => text.isEmpty
  | .run :: rest, text => text.tails.any (searches rest)
  | _ :: _, [] => false
  | part :: rest, c :: later => takes part c && searches rest later

theorem searches_run {rest : Pattern} :
    searches (.run :: rest) text = text.tails.any (searches rest) := by
  rw [searches]

theorem searches_other {part : PatternPart} {rest : Pattern} (other : part ≠ .run) :
    searches (part :: rest) (c :: later) = (takes part c && searches rest later) := by
  rw [searches]
  exact other

theorem partOf_ne_run (other : character ≠ '%') : partOf character ≠ .run := by
  rw [partOf, if_neg other]
  split <;> nofun

theorem searches_iff : searches (pattern.map partOf) text = true ↔ Cuts pattern text := by
  induction pattern generalizing text with
  | nil => rw [List.map_nil, searches, List.isEmpty_iff, cuts_nil]
  | cons character pattern ih =>
      rw [List.map_cons]
      by_cases percent : character = '%'
      · subst percent
        have run : partOf '%' = .run := rfl
        simp only [run, searches_run, List.any_eq_true, ih, cuts_run]
      · rw [cuts_other percent]
        cases text with
        | nil =>
            rw [searches]
            · simp
            · exact partOf_ne_run percent
        | cons c later =>
            rw [searches_other (partOf_ne_run percent), Bool.and_eq_true, ih]
            constructor
            · rintro ⟨taken, rest⟩
              exact ⟨c, later, rfl, taken, rest⟩
            · rintro ⟨_, _, ⟨⟩, taken, rest⟩
              exact ⟨taken, rest⟩

/-! ## The ends of a text, from the last one on -/

theorem headD_map_tails {found : List Char → Bool} :
    (text.tails.map found).headD false = found text := by
  cases text <;> rfl

theorem afterRun_tails {found : List Char → Bool} :
    afterRun (text.tails.map found) = text.tails.map fun later => later.tails.any found := by
  induction text with
  | nil => simp [afterRun]
  | cons c text ih =>
      rw [List.tails_cons, List.map_cons, List.map_cons, afterRun, ih, headD_map_tails,
        List.tails_cons, List.any_cons]

theorem matchPart_tails {part : PatternPart} (other : part ≠ .run) {found : List Char → Bool} :
    matchPart text part (text.tails.map found) = text.tails.map fun later =>
      match later with
      | [] => false
      | c :: rest => takes part c && found rest := by
  have single : matchPart text part (text.tails.map found) =
      (text.zip (text.tails.map found).tail).map (fun pair => takes part pair.1 && pair.2) ++
        [false] := by
    rw [matchPart]
    exact other
  rw [single]
  clear single
  induction text with
  | nil => rfl
  | cons c text ih =>
      rw [List.tails_cons, List.map_cons, List.map_cons, List.tail_cons, ← ih]
      cases text <;> simp

/-- For each end of a text, from the whole of it down to none, it is told whether the pattern
matches it. -/
theorem matchEnds_eq {pattern : Pattern} :
    matchEnds text pattern = text.tails.map (searches pattern) := by
  induction pattern with
  | nil =>
      rw [matchEnds, List.foldr_nil]
      induction text with
      | nil => rfl
      | cons c text ih => rw [List.map_cons, List.cons_append, ih, List.tails_cons, List.map_cons]; rfl
  | cons part pattern ih =>
      have step : matchEnds text (part :: pattern) = matchPart text part (matchEnds text pattern) := rfl
      rw [step, ih]
      by_cases run : part = .run
      · subst run
        rw [matchPart, afterRun_tails]
        exact List.map_congr_left fun later _ => searches_run.symm
      · rw [matchPart_tails run]
        refine List.map_congr_left fun later _ => ?_
        cases later with
        | nil =>
            rw [searches]
            exact run
        | cons c rest => exact (searches_other run).symm

/-- A pattern covers just the texts that split as its characters have it. -/
theorem covers_iff {pattern text : String} :
    (ofText pattern).covers text = true ↔ Splits pattern text := by
  rw [covers, matchEnds_eq, headD_map_tails, ofText, searches_iff, Splits]

instance {pattern text : String} : Decidable (Splits pattern text) :=
  decidable_of_iff _ covers_iff

end Pattern

namespace Predicate

variable {parameters : List Value} {resolve : Resolver} {matched pattern : Expression}
  {predicate : Predicate} {asked : Value}

theorem ofPattern_constant {operand : Expression → Except Error Operand} (present : asked ≠ .null)
    (read : operand pattern = .ok (.constant asked)) :
    ofPattern operand matched pattern =
      operand matched >>= fun found =>
        if (Pattern.ofText asked.written).fits then return .like found (.ofText asked.written)
        else throw .patternTooLarge := by
  rw [ofPattern, read, ok_bind]
  cases asked
  · exact absurd rfl present
  all_goals rfl

/-- What a pattern match becomes: an unknown for a null as the pattern, and else the pattern of
its text on the operand that is matched, if its size is within the limit. -/
theorem ofExpression_like_eq_ok_iff :
    ofExpression parameters resolve (.binary .like matched pattern) = .ok predicate ↔
      ∃ asked, Operand.ofExpression parameters resolve pattern = .ok (.constant asked) ∧
        ((asked = .null ∧ predicate = .constant none) ∨
          asked ≠ .null ∧ ∃ found, Operand.ofExpression parameters resolve matched = .ok found ∧
            (Pattern.ofText asked.written).fits = true ∧
            predicate = .like found (.ofText asked.written)) := by
  have compiled : ofExpression parameters resolve (.binary .like matched pattern) =
      ofPattern (Operand.ofExpression parameters resolve) matched pattern := by
    rw [ofExpression, reading]
  rw [compiled]
  constructor
  · intro made
    obtain ⟨operand, read, result⟩ := bind_eq_ok_iff.mp (by rwa [ofPattern] at made)
    rcases operand with position | asked
    · cases result
    · refine ⟨asked, read, ?_⟩
      by_cases null : asked = .null
      · subst null
        exact .inl ⟨rfl, (pure_eq_ok_iff.mp result).symm⟩
      · rw [ofPattern_constant null read] at made
        obtain ⟨found, operand, result⟩ := bind_eq_ok_iff.mp made
        split at result
        · rename_i fits
          exact .inr ⟨null, found, operand, fits, (pure_eq_ok_iff.mp result).symm⟩
        · cases result
  · rintro ⟨asked, read, ⟨rfl, rfl⟩ | ⟨present, found, operand, fits, rfl⟩⟩
    · rw [ofPattern, read]
      rfl
    · rw [ofPattern_constant present read, operand, ok_bind, if_pos fits]
      rfl

/-- A pattern on a value is unknown for a null, and else told by whether the value's text splits. -/
theorem evaluate_like {operand : Operand} {tuple : Tuple} {text : String} :
    (Predicate.like operand (.ofText text)).evaluate tuple =
      if operand.value tuple = .null then none
      else some (decide (Pattern.Splits text (operand.value tuple).written)) := by
  have told : (Pattern.ofText text).covers (operand.value tuple).written =
      decide (Pattern.Splits text (operand.value tuple).written) := by
    rw [Bool.eq_iff_iff, Pattern.covers_iff, decide_eq_true_iff]
  rw [evaluate]
  split
  · rename_i null
    rw [if_pos null]
  · rename_i present
    rw [if_neg present, told]

/-- A match compiles if its pattern is a null, or a constant within the limit that is matched
with an operand. It is then unknown just where one of the two sides is a null, and else true just
where the text of the value splits into pieces as the text of the pattern has it. -/
theorem like_splits (parameters : List Value) (resolve : Resolver) (matched pattern : Expression) :
    ((∃ predicate, ofExpression parameters resolve (.binary .like matched pattern) = .ok predicate) ↔
      ∃ asked, Operand.ofExpression parameters resolve pattern = .ok (.constant asked) ∧
        (asked = .null ∨ (∃ found, Operand.ofExpression parameters resolve matched = .ok found) ∧
          (Pattern.ofText asked.written).fits = true)) ∧
      ∀ predicate asked tuple,
        ofExpression parameters resolve (.binary .like matched pattern) = .ok predicate →
        Operand.ofExpression parameters resolve pattern = .ok (.constant asked) →
        (predicate.evaluate tuple = none ↔
          asked = .null ∨ ∃ found, Operand.ofExpression parameters resolve matched = .ok found ∧
            found.value tuple = .null) ∧
        (predicate.evaluate tuple = some true ↔
          asked ≠ .null ∧ ∃ found, Operand.ofExpression parameters resolve matched = .ok found ∧
            found.value tuple ≠ .null ∧
            Pattern.Splits asked.written (found.value tuple).written) ∧
        (predicate.evaluate tuple = some false ↔
          asked ≠ .null ∧ ∃ found, Operand.ofExpression parameters resolve matched = .ok found ∧
            found.value tuple ≠ .null ∧
            ¬ Pattern.Splits asked.written (found.value tuple).written) := by
  constructor
  · constructor
    · rintro ⟨predicate, compiled⟩
      obtain ⟨asked, read, ⟨null, -⟩ | ⟨-, found, operand, fits, -⟩⟩ :=
        ofExpression_like_eq_ok_iff.mp compiled
      · exact ⟨asked, read, .inl null⟩
      · exact ⟨asked, read, .inr ⟨⟨found, operand⟩, fits⟩⟩
    · rintro ⟨asked, read, compiles⟩
      by_cases null : asked = .null
      · exact ⟨_, ofExpression_like_eq_ok_iff.mpr ⟨asked, read, .inl ⟨null, rfl⟩⟩⟩
      · obtain ⟨⟨found, operand⟩, fits⟩ := compiles.resolve_left null
        exact ⟨_, ofExpression_like_eq_ok_iff.mpr
          ⟨asked, read, .inr ⟨null, found, operand, fits, rfl⟩⟩⟩
  · intro predicate asked tuple compiled read
    obtain ⟨seen, seenRead, known⟩ := ofExpression_like_eq_ok_iff.mp compiled
    obtain rfl : seen = asked := by
      rw [read] at seenRead
      cases seenRead
      rfl
    rcases known with ⟨null, rfl⟩ | ⟨present, found, operand, -, rfl⟩
    · simp [evaluate, null]
    · have one : ∀ other, Operand.ofExpression parameters resolve matched = .ok other ↔
          other = found := fun other => by rw [operand, Except.ok.injEq, eq_comm]
      rw [evaluate_like]
      simp only [one, exists_eq_left, present, false_or, not_false_eq_true, true_and, ne_eq]
      by_cases null : found.value tuple = .null
      · simp [null]
      · simp [null]

theorem like_splits_parameter :
    ∃ predicate,
      ofExpression [.text "%._%"] (fun _ => .ok 0) (.binary .like (.field none "a") (.parameter 0)) =
        .ok predicate ∧
      predicate.evaluate [.text "a.\n.b"] = some true ∧
      predicate.evaluate [.text "abc"] = some false ∧ predicate.evaluate [.null] = none := by
  obtain ⟨compiles, told⟩ := like_splits [.text "%._%"] (fun _ => .ok 0) (.field none "a") (.parameter 0)
  have fits : (Pattern.ofText "%._%").fits = true := by
    have alone : Text.caseVariants '.' = ['.'] := by decide +kernel
    have point : Pattern.sizeOfPart Pattern.sizeOfAny (.letter '.') = ⟨32, 32⟩ := by
      rw [Pattern.sizeOfPart, alone, List.mergeSort_singleton]
      decide
    have parts : Pattern.ofText "%._%" = [.run, .letter '.', .one, .run] := by decide
    rw [parts, Pattern.fits, Pattern.size]
    simp only [List.foldl, point]
    decide +kernel
  obtain ⟨predicate, compiled⟩ := compiles.mpr ⟨.text "%._%", rfl, .inr ⟨⟨.column 0, rfl⟩, fits⟩⟩
  have told := fun tuple => told predicate _ tuple compiled rfl
  refine ⟨predicate, compiled, (told _).2.1.mpr ?_, (told _).2.2.mpr ?_, (told _).1.mpr ?_⟩
  · exact ⟨nofun, .column 0, rfl, nofun, by decide +kernel⟩
  · exact ⟨nofun, .column 0, rfl, nofun, by decide +kernel⟩
  · exact .inr ⟨.column 0, rfl, rfl⟩

/-- Several runs, a line break, and letters of either case. -/
example : Pattern.Splits "%.b_%a" "A\n.Bc.\nA" ∧ ¬ Pattern.Splits "%.b_%a" "Axbca" := by
  decide +kernel

end Predicate

end Coffer
