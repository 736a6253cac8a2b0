import Coffer.Proofs.RoundedInteger
import Coffer.Proofs.StableSort

namespace Coffer

/-! # The order of sorted values

Numbers are sorted by size, and everything else as text. The two do not always go together: a word
may stand between the texts of two numbers that are the other way round as numbers, and a text may
spell the real that two different integers round to. Where there is nothing of the kind among
values, they can be sorted, and where there is, they go round in a circle.
-/

theorem Binary64.compare?_swap {x y : Binary64} :
    x.compare? y = (y.compare? x).map Ordering.swap := by
  rw [compare?, compare?, Bool.or_comm, ← Int.compare_swap y.rank]
  split <;> rfl

namespace Value

/-- Whether a value may stand before another one where values are sorted. -/
def upTo (first second : Value) : Bool :=
  first.sortOrder second != .gt

def isReal : Value → Bool
  | .real _ => true
  | _ => false

/-- Whether a text that spells no number stands, as texts go, above one number and below another
one that is not above the first. -/
def Splits (content : String) (low high : Value) : Prop :=
  realOfText? content = none ∧ low.number?.isSome ∧ high.number?.isSome ∧ low.upTo high = true ∧
    high.written < content ∧ content < low.written

/-- Whether two different integers round to the real that a text spells. -/
def Blurs (content : String) (first second : Int64) : Prop :=
  first.toInt < second.toInt ∧ ∃ x, realOfText? content = some x ∧
    x.rank = (Binary64.ofInt first.toInt).rank ∧ x.rank = (Binary64.ofInt second.toInt).rank

/-- Values with no word between two numbers that are the other way round, and no text that spells
the real of two integers. -/
structure Straight (values : List Value) : Prop where
  unsplit : ∀ content low high, .text content ∈ values → low ∈ values → high ∈ values →
    ¬ Splits content low high
  unblurred : ∀ content first second, .text content ∈ values → .integer first ∈ values →
    .integer second ∈ values → ¬ Blurs content first second

variable {first second third : Value} {x y : Binary64} {content : String}

/-! ## Two values -/

/-- Values that are not both integers are compared as reals or as texts. -/
theorem compare?_mixed (mixed : ¬ ∃ number other, first = .integer number ∧ second = .integer other)
    (firstKnown : first ≠ .null) (secondKnown : second ≠ .null) :
    first.compare? second =
      match first.number?, second.number? with
      | some x, some y => x.compare? y
      | _, _ => some (compare first.written second.written) := by
  cases first <;> cases second <;> first | rfl | simp_all

theorem compare?_swap : first.compare? second = (second.compare? first).map Ordering.swap := by
  by_cases firstKnown : first = .null
  · subst firstKnown
    cases second <;> rfl
  by_cases secondKnown : second = .null
  · subst secondKnown
    cases first <;> rfl
  by_cases both : ∃ number other, first = .integer number ∧ second = .integer other
  · obtain ⟨number, other, rfl, rfl⟩ := both
    simp [compare?, Int.compare_swap]
  · have exchanged : ¬ ∃ other number, second = .integer other ∧ first = .integer number := by
      intro found
      obtain ⟨other, number, alike, same⟩ := found
      exact both ⟨number, other, same, alike⟩
    rw [compare?_mixed both firstKnown secondKnown, compare?_mixed exchanged secondKnown firstKnown]
    cases first.number? with
    | none =>
        cases second.number? <;> exact congrArg some Std.OrientedCmp.eq_swap
    | some x =>
        cases second.number? with
        | none => exact congrArg some Std.OrientedCmp.eq_swap
        | some y => exact Binary64.compare?_swap

theorem sortOrder_swap : first.sortOrder second = (second.sortOrder first).swap := by
  have known : (first.compare? second).getD .eq = ((second.compare? first).getD .eq).swap := by
    rw [compare?_swap]
    cases second.compare? first <;> rfl
  cases first <;> cases second <;> first | rfl | exact known

theorem upTo_total : (first.upTo second || second.upTo first) = true := by
  rw [upTo, upTo, @sortOrder_swap first]
  cases second.sortOrder first <;> rfl

theorem upTo_of_not_upTo (above : ¬ first.upTo second = true) : second.upTo first = true := by
  have total := @upTo_total first second
  rw [Bool.or_eq_true] at total
  exact total.resolve_left above

theorem null_upTo : Value.null.upTo second = true := by
  cases second <;> rfl

theorem null_of_upTo (below : first.upTo .null = true) : first = .null := by
  cases first with
  | null => rfl
  | _ => cases below

theorem upTo_integers {number other : Int64} :
    (Value.integer number).upTo (.integer other) = true ↔ number.toInt ≤ other.toInt := by
  rw [← decide_eq_true_iff (p := number.toInt ≤ other.toInt),
    (decide_le_eq_compare number.toInt other.toInt).1]
  rfl

theorem upTo_mixed (firstKnown : first ≠ .null) (secondKnown : second ≠ .null) :
    first.upTo second = ((first.compare? second).getD .eq != .gt) := by
  cases first <;> cases second <;> simp_all [upTo, sortOrder]

theorem upTo_texts (firstKnown : first ≠ .null) (secondKnown : second ≠ .null)
    (word : first.number? = none ∨ second.number? = none) :
    first.upTo second = true ↔ first.written ≤ second.written := by
  have mixed : ¬ ∃ number other, first = .integer number ∧ second = .integer other := by
    intro both
    obtain ⟨number, other, rfl, rfl⟩ := both
    simp [number?] at word
  rw [← decide_eq_true_iff (p := first.written ≤ second.written),
    (decide_le_eq_compare first.written second.written).1, upTo_mixed firstKnown secondKnown,
    compare?_mixed mixed firstKnown secondKnown]
  rcases word with none | none
  · rw [none]
    rfl
  · rw [none]
    cases first.number? <;> rfl

theorem ne_null (number : first.number? = some x) : first ≠ .null := by
  intro null
  rw [null] at number
  cases number

theorem number_defined (plain : first.isReal = false) (number : first.number? = some x) :
    x.isNan = false := by
  cases first with
  | null => cases number
  | integer whole =>
      cases number
      exact Binary64.not_isNan_of_isFinite Binary64.ofInt_finite
  | real real => cases plain
  | text content =>
      exact Binary64.not_isNan_of_isFinite (Option.filter_eq_some_iff.mp number).2

section Numbers

variable (firstPlain : first.isReal = false) (secondPlain : second.isReal = false)
  (firstNumber : first.number? = some x) (secondNumber : second.number? = some y)

include firstPlain secondPlain firstNumber secondNumber

theorem upTo_reals
    (mixed : ¬ ∃ number other, first = .integer number ∧ second = .integer other) :
    first.upTo second = true ↔ x.rank ≤ y.rank := by
  have ordered : x.compare? y = some (compare x.rank y.rank) := by
    simp [Binary64.compare?, number_defined firstPlain firstNumber,
      number_defined secondPlain secondNumber]
  rw [← decide_eq_true_iff (p := x.rank ≤ y.rank), (decide_le_eq_compare x.rank y.rank).1,
    upTo_mixed (ne_null firstNumber) (ne_null secondNumber),
    compare?_mixed mixed (ne_null firstNumber) (ne_null secondNumber), firstNumber, secondNumber]
  simp [ordered]

theorem rank_le_of_upTo (below : first.upTo second = true) : x.rank ≤ y.rank := by
  by_cases both : ∃ number other, first = .integer number ∧ second = .integer other
  · obtain ⟨number, other, rfl, rfl⟩ := both
    cases firstNumber
    cases secondNumber
    exact Binary64.rank_ofInt_mono (upTo_integers.mp below)
  · exact (upTo_reals firstPlain secondPlain firstNumber secondNumber both).mp below

theorem upTo_of_rank_lt (less : x.rank < y.rank) : first.upTo second = true := by
  by_contra above
  have := rank_le_of_upTo secondPlain firstPlain secondNumber firstNumber (upTo_of_not_upTo above)
  omega

/-- Numbers that round alike are told apart only where both are integers. -/
theorem integers_of_not_upTo (same : x.rank = y.rank) (above : ¬ first.upTo second = true) :
    ∃ number other, first = .integer number ∧ second = .integer other ∧
      other.toInt < number.toInt := by
  by_cases both : ∃ number other, first = .integer number ∧ second = .integer other
  · obtain ⟨number, other, rfl, rfl⟩ := both
    exact ⟨number, other, rfl, rfl, by simpa [upTo_integers] using above⟩
  · rw [upTo_reals firstPlain secondPlain firstNumber secondNumber both] at above
    omega

end Numbers

/-- A text that spells the real of an integer is level with it. -/
theorem level_of_rank_eq {number : Int64} (spelled : realOfText? content = some x)
    (same : x.rank = (Binary64.ofInt number.toInt).rank) :
    (Value.text content).upTo (.integer number) = true ∧
      (Value.integer number).upTo (.text content) = true := by
  have textNumber : (Value.text content).number? = some x := spelled
  have wholeNumber : (Value.integer number).number? = some (.ofInt number.toInt) := rfl
  constructor
  · exact (upTo_reals rfl rfl textNumber wholeNumber (by simp)).mpr same.le
  · exact (upTo_reals rfl rfl wholeNumber textNumber (by simp)).mpr same.ge

/-! ## Words -/

theorem word_eq (plain : first.isReal = false) (known : first ≠ .null)
    (word : first.number? = none) : ∃ content, first = .text content ∧ realOfText? content = none := by
  cases first with
  | null => exact absurd rfl known
  | integer whole => cases word
  | real real => cases plain
  | text content => exact ⟨content, rfl, word⟩

/-- A number is not written as a word is. -/
theorem written_ne (plain : first.isReal = false) (number : first.number?.isSome)
    (word : realOfText? content = none) : first.written ≠ content := by
  intro same
  cases first with
  | null => cases number
  | real real => cases plain
  | text spelled =>
      rw [number?, show spelled = content from same, word] at number
      cases number
  | integer whole =>
      rw [← show integerText whole.toInt = content from same, realOfText?_integerText] at word
      cases word

theorem word_upTo (word : realOfText? content = none) (number : first.number?.isSome) :
    (Value.text content).upTo first = true ↔ content ≤ first.written := by
  obtain ⟨x, known⟩ := Option.isSome_iff_exists.mp number
  exact upTo_texts Value.noConfusion (ne_null known) (.inl word)

theorem upTo_word (word : realOfText? content = none) (number : first.number?.isSome) :
    first.upTo (.text content) = true ↔ first.written ≤ content := by
  obtain ⟨x, known⟩ := Option.isSome_iff_exists.mp number
  exact upTo_texts (ne_null known) Value.noConfusion (.inr word)

/-- A word that is at most one number and at least another one. -/
theorem splits_of_circle (word : realOfText? content = none)
    (firstPlain : first.isReal = false) (secondPlain : second.isReal = false)
    (firstNumber : first.number?.isSome) (secondNumber : second.number?.isSome)
    (above : (Value.text content).upTo first = true) (ordered : first.upTo second = true)
    (below : second.upTo (.text content) = true) : Splits content first second := by
  rw [word_upTo word firstNumber] at above
  rw [upTo_word word secondNumber] at below
  exact ⟨word, firstNumber, secondNumber, ordered,
    lt_of_le_of_ne below (written_ne secondPlain secondNumber word),
    lt_of_le_of_ne above (written_ne firstPlain firstNumber word).symm⟩

/-! ## Circles -/

section Circles

variable {values : List Value} (straight : Straight values)
  (plain : ∀ value ∈ values, value.isReal = false) (firstIn : first ∈ values)
  (secondIn : second ∈ values) (thirdIn : third ∈ values)

include straight plain firstIn secondIn thirdIn

/-- A circle through a word goes the other way round as well: with another word in it, all of it
is compared as text. -/
theorem Straight.circle_of_word (firstKnown : first ≠ .null) (secondKnown : second ≠ .null)
    (thirdKnown : third ≠ .null) (word : first.number? = none)
    (one : first.upTo second = true) (two : second.upTo third = true)
    (three : third.upTo first = true) :
    first.upTo third = true ∧ third.upTo second = true ∧ second.upTo first = true := by
  by_cases other : second.number? = none ∨ third.number? = none
  · rw [upTo_texts firstKnown secondKnown (.inl word)] at one
    rw [upTo_texts secondKnown thirdKnown other] at two
    rw [upTo_texts thirdKnown firstKnown (.inr word)] at three
    rw [upTo_texts firstKnown thirdKnown (.inl word), upTo_texts thirdKnown secondKnown other.symm,
      upTo_texts secondKnown firstKnown (.inr word)]
    exact ⟨le_trans one two, le_trans three one, le_trans two three⟩
  · obtain ⟨secondNumber, thirdNumber⟩ := not_or.mp other
    obtain ⟨content, rfl, spelled⟩ := word_eq (plain first firstIn) firstKnown word
    exact absurd
      (splits_of_circle spelled (plain second secondIn) (plain third thirdIn)
        (Option.isSome_iff_ne_none.mpr secondNumber) (Option.isSome_iff_ne_none.mpr thirdNumber)
        one two three)
      (straight.unsplit content second third firstIn secondIn thirdIn)

/-- Numbers that round alike are in order unless there is a text between two integers. -/
theorem Straight.upTo_trans_numbers {z : Binary64} (firstNumber : first.number? = some x)
    (secondNumber : second.number? = some y) (thirdNumber : third.number? = some z)
    (left : first.upTo second = true) (right : second.upTo third = true) :
    first.upTo third = true := by
  have firstPlain := plain first firstIn
  have secondPlain := plain second secondIn
  have thirdPlain := plain third thirdIn
  have low := rank_le_of_upTo firstPlain secondPlain firstNumber secondNumber left
  have high := rank_le_of_upTo secondPlain thirdPlain secondNumber thirdNumber right
  by_cases less : x.rank < z.rank
  · exact upTo_of_rank_lt firstPlain thirdPlain firstNumber thirdNumber less
  by_contra above
  obtain ⟨number, other, rfl, rfl, below⟩ :=
    integers_of_not_upTo firstPlain thirdPlain firstNumber thirdNumber (by omega) above
  cases firstNumber
  cases thirdNumber
  cases second with
  | null => cases secondNumber
  | real real => cases secondPlain
  | integer between =>
      rw [upTo_integers] at left right
      omega
  | text content =>
      exact straight.unblurred content other number secondIn thirdIn firstIn
        ⟨below, y, secondNumber, by omega, by omega⟩

theorem Straight.upTo_trans (left : first.upTo second = true) (right : second.upTo third = true) :
    first.upTo third = true := by
  by_cases firstKnown : first = .null
  · rw [firstKnown]
    exact null_upTo
  have secondKnown : second ≠ .null := fun null => firstKnown (null_of_upTo (null ▸ left))
  have thirdKnown : third ≠ .null := fun null => secondKnown (null_of_upTo (null ▸ right))
  by_contra apart
  have back := upTo_of_not_upTo apart
  apply apart
  cases firstNumber : first.number? with
  | none =>
      exact (straight.circle_of_word plain firstIn secondIn thirdIn firstKnown secondKnown
        thirdKnown firstNumber left right back).1
  | some x =>
      cases secondNumber : second.number? with
      | none =>
          exact (straight.circle_of_word plain secondIn thirdIn firstIn secondKnown thirdKnown
            firstKnown secondNumber right back left).2.1
      | some y =>
          cases thirdNumber : third.number? with
          | none =>
              exact (straight.circle_of_word plain thirdIn firstIn secondIn thirdKnown firstKnown
                secondKnown thirdNumber back left right).2.2
          | some z =>
              exact straight.upTo_trans_numbers plain firstIn secondIn thirdIn firstNumber
                secondNumber thirdNumber left right

end Circles

/-- The order of two values is always the reverse of the order of the second one and the first,
and values that are no reals are sorted by it, each up to the ones behind it, exactly where no word
stands between two numbers that are the other way round and no text spells the real of two
different integers. -/
theorem sortable_iff {values : List Value} (plain : ∀ value ∈ values, value.isReal = false) :
    (∀ first second : Value, first.sortOrder second = (second.sortOrder first).swap) ∧
      (Orders (fun first second : { value // value ∈ values } =>
          first.1.sortOrder second.1 != .gt) ↔ Straight values) := by
  refine ⟨fun first second => sortOrder_swap, fun orders => ⟨?unsplit, ?unblurred⟩, fun straight =>
    ⟨fun first second => upTo_total, fun first second third =>
      straight.upTo_trans plain first.2 second.2 third.2⟩⟩
  case unsplit =>
    intro content low high wordIn lowIn highIn splits
    obtain ⟨word, lowNumber, highNumber, ordered, beneath, beyond⟩ := splits
    have above := (word_upTo word lowNumber).mpr beyond.le
    have around := orders.trans ⟨_, wordIn⟩ ⟨_, lowIn⟩ ⟨_, highIn⟩ above ordered
    exact absurd ((word_upTo word highNumber).mp around) beneath.not_ge
  case unblurred =>
    intro content first second textIn firstIn secondIn blurs
    obtain ⟨less, x, spelled, firstAlike, secondAlike⟩ := blurs
    have around := orders.trans ⟨_, secondIn⟩ ⟨_, textIn⟩ ⟨_, firstIn⟩
      (level_of_rank_eq spelled secondAlike).2 (level_of_rank_eq spelled firstAlike).1
    exact absurd (upTo_integers.mp around) less.not_ge

/-- By their texts 10 is below 1a and that below 9, but 9 is below 10 as a number. -/
theorem sortable_iff_circle :
    let values := [Value.text "10", .text "1a", .text "9"]
    (∀ value ∈ values, value.isReal = false) ∧ Splits "1a" (.text "9") (.text "10") ∧
      ¬ Orders (fun first second : { value // value ∈ values } =>
        first.1.sortOrder second.1 != .gt) := by
  intro values
  have plain : ∀ value ∈ values, value.isReal = false := by decide
  have splits : Splits "1a" (.text "9") (.text "10") := by
    refine ⟨?_, ?_, ?_, ?_, ?_, ?_⟩ <;> decide +kernel
  exact ⟨plain, splits, fun orders =>
    ((sortable_iff plain).2.mp orders).unsplit "1a" (.text "9") (.text "10")
      (by decide) (by decide) (by decide) splits⟩

end Value

end Coffer
