import Coffer.Proofs.Grouping
import Coffer.Proofs.StableSort

namespace Coffer

/-! # Exact sums

A sum of integers is exact as long as the sums on the way to it are within 64 bits, and a real from
the first one on that is not, even where later values would bring it back. So it does not depend on
the order of the values just where what is positive adds up to a sum within the bounds, and what
is negative too.
-/

/-- Whether a whole number has 64 bits. -/
def IsShort (number : Int) : Prop :=
  -(Nat.pow 2 63) ≤ number ∧ number < Nat.pow 2 63

instance (number : Int) : Decidable (IsShort number) :=
  inferInstanceAs (Decidable (_ ∧ _))

/-- What a value adds to a sum of integers. -/
def Value.whole : Value → Int
  | .integer number => number.toInt
  | _ => 0

/-- The sum of the integers among values, whatever its size. -/
def exactSum (values : List Value) : Int :=
  values.foldr (fun value total => value.whole + total) 0

/-- Whether the sum stays short from a start on, after each of the values. -/
def StaysShort (start : Int) (values : List Value) : Prop :=
  ∀ front, front <+: values → IsShort (start + exactSum front)

section

variable {values front order : List Value} {value : Value} {start : Int}

@[simp]
theorem exactSum_nil : exactSum [] = 0 := rfl

@[simp]
theorem exactSum_cons : exactSum (value :: values) = value.whole + exactSum values := rfl

@[simp]
theorem exactSum_append : exactSum (values ++ order) = exactSum values + exactSum order := by
  induction values with
  | nil => simp
  | cons value rest ih => simp [ih, Int.add_assoc]

theorem exactSum_perm (same : order.Perm values) : exactSum order = exactSum values := by
  induction same with
  | nil => rfl
  | cons value _ ih => simp [ih]
  | swap first second rest =>
      simp only [exactSum_cons]
      omega
  | trans _ _ left right => exact left.trans right

theorem staysShort_cons :
    StaysShort start (value :: values) ↔
      IsShort start ∧ StaysShort (start + value.whole) values := by
  constructor
  · intro short
    refine ⟨by simpa using short [] List.nil_prefix, fun front shown => ?_⟩
    simpa [Int.add_assoc] using short (value :: front) (List.cons_prefix_cons.mpr ⟨rfl, shown⟩)
  · intro ⟨first, rest⟩ front shown
    cases front with
    | nil => simpa using first
    | cons other front =>
        obtain ⟨rfl, within⟩ := List.cons_prefix_cons.mp shown
        simpa [Int.add_assoc] using rest front within

theorem isShort_toInt (number : Int64) : IsShort number.toInt :=
  ⟨number.le_toInt, number.toInt_lt⟩

theorem checkedSum_of_isShort {first second : Int64}
    (short : IsShort (first.toInt + second.toInt)) :
    ∃ total, checkedSum first second = some total ∧
      total.toInt = first.toInt + second.toInt :=
  ⟨Int64.ofInt (first.toInt + second.toInt), if_pos short,
    Int64.toInt_ofInt_of_le short.1 short.2⟩

/-! ## The running sum -/

namespace Accumulator

variable {running : RunningSum}

/-- Of integers and nulls, a sum has seen the integers, and nothing else. -/
theorem foldl_whole (whole : ∀ value ∈ values, value.isWhole = true) :
    ∃ result, values.foldl add (.sum running) = .sum result ∧
      result.allWhole = running.allWhole ∧
      (result.seen = true ↔ running.seen = true ∨ ∃ number, .integer number ∈ values) ∧
      (running.whole = none → result.whole = none) ∧
      ∀ before, running.whole = some before →
        (StaysShort before.toInt values →
          ∃ total, result.whole = some total ∧
            total.toInt = before.toInt + exactSum values) ∧
        (¬ StaysShort before.toInt values → result.whole = none) := by
  induction values generalizing running with
  | nil =>
      refine ⟨running, rfl, rfl, by simp, id, fun before held => ⟨fun _ => ?_, fun long => ?_⟩⟩
      · exact ⟨before, held, by simp⟩
      · refine absurd (fun front shown => ?_) long
        rw [List.prefix_nil.mp shown]
        simpa using isShort_toInt before
  | cons value rest ih =>
      obtain ⟨first, others⟩ := List.forall_mem_cons.mp whole
      cases value with
      | null =>
          obtain ⟨result, folded, kept, seen, lost, sums⟩ := @ih running others
          refine ⟨result, folded, kept, by simp [seen], lost, fun before held => ?_⟩
          have same : StaysShort before.toInt (.null :: rest) ↔ StaysShort before.toInt rest := by
            simp [staysShort_cons, Value.whole, isShort_toInt]
          simpa [same, Value.whole] using sums before held
      | integer number =>
          obtain ⟨result, folded, kept, seen, lost, sums⟩ :=
            @ih (running.add (.integer number)) others
          refine ⟨result, folded, kept, ?_, fun none => ?_, fun before held => ?_⟩
          · simp [seen, RunningSum.add]
          · apply lost
            simp [RunningSum.add, none]
          · rw [staysShort_cons, and_iff_right (isShort_toInt before), Value.whole]
            have added : (running.add (.integer number)).whole = checkedSum before number := by
              simp [RunningSum.add, held]
            by_cases short : IsShort (before.toInt + number.toInt)
            · obtain ⟨total, checked, value⟩ := checkedSum_of_isShort short
              have next := sums total (added.trans checked)
              rw [value] at next
              simpa [Value.whole, Int.add_assoc] using next
            · refine ⟨fun stays => absurd ?_ short, fun _ => lost ?_⟩
              · simpa using stays [] List.nil_prefix
              · rw [added]
                exact if_neg short
      | real => cases first
      | text => cases first

end Accumulator

namespace Aggregate

theorem sum_of_staysShort (whole : ∀ value ∈ values, value.isWhole = true)
    (known : ∃ number, .integer number ∈ values) (short : StaysShort 0 values) :
    ∃ total, Aggregate.sum.value values = .integer total ∧ total.toInt = exactSum values := by
  obtain ⟨result, folded, kept, seen, -, sums⟩ :=
    @Accumulator.foldl_whole values .start whole
  obtain ⟨total, held, exact⟩ := (sums 0 rfl).1 short
  refine ⟨total, ?_, by simpa using exact⟩
  rw [value_eq_fold, fold, Accumulator.start, folded, Accumulator.finish, RunningSum.finish,
    seen.mpr (.inr known), kept, held]
  rfl

theorem sum_of_not_staysShort (whole : ∀ value ∈ values, value.isWhole = true)
    (known : ∃ number, .integer number ∈ values) (long : ¬ StaysShort 0 values) :
    ∃ total, Aggregate.sum.value values = .real total := by
  obtain ⟨result, folded, kept, seen, -, sums⟩ :=
    @Accumulator.foldl_whole values .start whole
  refine ⟨result.real, ?_⟩
  rw [value_eq_fold, fold, Accumulator.start, folded, Accumulator.finish, RunningSum.finish,
    seen.mpr (.inr known), kept, (sums 0 rfl).2 long]
  rfl

end Aggregate

/-! ## All orders -/

def positives (values : List Value) : List Value :=
  values.filter fun value => 0 < value.whole

def negatives (values : List Value) : List Value :=
  values.filter fun value => value.whole < 0

theorem exactSum_between :
    exactSum (negatives values) ≤ exactSum values ∧ exactSum values ≤ exactSum (positives values) ∧
      exactSum (negatives values) ≤ 0 ∧ 0 ≤ exactSum (positives values) := by
  induction values with
  | nil => simp [negatives, positives]
  | cons value rest ih =>
      simp only [negatives, positives, List.filter_cons, decide_eq_true_eq] at ih ⊢
      split <;> split <;> simp only [exactSum_cons] <;> omega

theorem staysShort_of_bounds (low : IsShort (exactSum (negatives values)))
    (high : IsShort (exactSum (positives values))) : StaysShort 0 values := by
  intro front shown
  obtain ⟨rest, rfl⟩ := shown
  simp only [negatives, positives, List.filter_append, exactSum_append] at low high
  have before := @exactSum_between front
  have after := @exactSum_between rest
  simp only [negatives, positives] at before after
  rw [Int.zero_add]
  constructor
  · have := low.1
    omega
  · have := high.2
    omega

theorem positives_prefix (values : List Value) :
    ∃ order, order.Perm values ∧ positives values <+: order :=
  ⟨_, List.filter_append_perm (fun value => decide (0 < value.whole)) values,
    List.prefix_append _ _⟩

theorem negatives_prefix (values : List Value) :
    ∃ order, order.Perm values ∧ negatives values <+: order :=
  ⟨_, List.filter_append_perm (fun value => decide (value.whole < 0)) values,
    List.prefix_append _ _⟩

/-- The sum of integers and nulls is the exact one where all sums on the way are short, in the order
of the values, and a real otherwise. It is the exact one in every order just where the positive
ones have a short sum, and the negative ones too. -/
theorem Aggregate.sum_exact_iff (whole : ∀ value ∈ values, value.isWhole = true)
    (known : ∃ number, .integer number ∈ values) :
    (StaysShort 0 values →
      ∃ total, Aggregate.sum.value values = .integer total ∧ total.toInt = exactSum values) ∧
    (¬ StaysShort 0 values → ∃ total, Aggregate.sum.value values = .real total) ∧
    ((∀ order, order.Perm values →
        ∃ total, Aggregate.sum.value order = .integer total ∧ total.toInt = exactSum values) ↔
      IsShort (exactSum (positives values)) ∧ IsShort (exactSum (negatives values))) := by
  have kept {order : List Value} (same : order.Perm values) :
      (∀ value ∈ order, value.isWhole = true) ∧ ∃ number, .integer number ∈ order :=
    ⟨fun value member => whole value (same.mem_iff.mp member),
      known.imp fun _ => same.mem_iff.mpr⟩
  refine ⟨sum_of_staysShort whole known, sum_of_not_staysShort whole known, ?_, ?_⟩
  · intro exact
    -- An order that starts with the values of one sign has their sum on its way.
    have short {front order : List Value} (same : order.Perm values) (shown : front <+: order) :
        IsShort (exactSum front) := by
      by_contra long
      obtain ⟨total, summed, -⟩ := exact order same
      obtain ⟨orderWhole, orderKnown⟩ := kept same
      obtain ⟨other, lost⟩ := sum_of_not_staysShort orderWhole orderKnown
        fun stays => long (by simpa using stays front shown)
      rw [summed] at lost
      cases lost
    obtain ⟨upwards, upwardsSame, first⟩ := positives_prefix values
    obtain ⟨downwards, downwardsSame, second⟩ := negatives_prefix values
    exact ⟨short upwardsSame first, short downwardsSame second⟩
  · intro ⟨high, low⟩ order same
    obtain ⟨orderWhole, orderKnown⟩ := kept same
    have highSame : exactSum (positives order) = exactSum (positives values) :=
      exactSum_perm (same.filter _)
    have lowSame : exactSum (negatives order) = exactSum (negatives values) :=
      exactSum_perm (same.filter _)
    rw [← exactSum_perm same]
    exact sum_of_staysShort orderWhole orderKnown
      (staysShort_of_bounds (lowSame ▸ low) (highSame ▸ high))

/-- One is taken off again before it is added, so the sum is exact in this order. -/
theorem Aggregate.sum_exact_after_decrease :
    let values : List Value := [.integer Int64.maxValue, .integer (-1), .null, .integer 1]
    (∀ value ∈ values, value.isWhole = true) ∧ (∃ number, .integer number ∈ values) ∧
    StaysShort 0 values ∧ (∃ total, Aggregate.sum.value values = .integer total ∧
      total.toInt = Int64.maxValue.toInt) ∧
    ¬ ∀ order, order.Perm values →
      ∃ total, Aggregate.sum.value order = .integer total ∧ total.toInt = exactSum values := by
  intro values
  have whole : ∀ value ∈ values, value.isWhole = true := by decide
  have known : ∃ number, .integer number ∈ values := ⟨1, by decide⟩
  have short : StaysShort 0 values := by
    simp only [values, staysShort_cons]
    refine ⟨by decide, by decide, by decide, by decide, fun front shown => ?_⟩
    rw [List.prefix_nil.mp shown]
    decide
  obtain ⟨exact, -, always⟩ := Aggregate.sum_exact_iff whole known
  refine ⟨whole, known, short, exact short, fun all => ?_⟩
  exact absurd (always.mp all).1 (by decide)

/-- A sum within the bounds, of which the sum of the first two values is not, comes out as a real
in one order and as an integer in another. -/
theorem Aggregate.sum_lost_on_the_way :
    let values : List Value := [.integer Int64.maxValue, .integer (-1), .integer 1]
    let order : List Value := [.integer Int64.maxValue, .integer 1, .integer (-1)]
    (∀ value ∈ values, value.isWhole = true) ∧ (∃ number, .integer number ∈ values) ∧
    IsShort (exactSum values) ∧ order.Perm values ∧
    Aggregate.sum.value values = .integer Int64.maxValue ∧
    Aggregate.sum.value order = .real (.ofInt (Nat.pow 2 63)) ∧
    ¬ ∃ total, Aggregate.sum.value order = .integer total ∧ total.toInt = exactSum values := by
  intro values order
  have real : Aggregate.sum.value order = .real (.ofInt (Nat.pow 2 63)) := by decide +kernel
  refine ⟨by decide, ⟨1, by decide⟩, by decide, ?_, by decide +kernel, real, ?_⟩
  · exact .cons _ (.swap _ _ _)
  · intro ⟨total, summed, _⟩
    rw [real] at summed
    cases summed

end

end Coffer
