import Coffer.Proofs.Defaults
import Coffer.Proofs.ExactNumber
import Coffer.Proofs.Lookup
import Coffer.Proofs.SelfAssignment
import Coffer.Proofs.SortOrder

namespace Coffer

/-! # Keys and comparison

Values are compared as reals, to which integers are rounded, while keys tell all integers apart. So
values have one key if they are equal by comparison and no two different integers. A lookup in a
unique column finds the rows that a condition on the column selects, up to those whose integers
only round to the same real.
-/

/-- The integer that a real is, if it is one. -/
def Binary64.whole? (x : Binary64) : Option Int :=
  if x.isWhole then some x.truncated else none

/-- The integer that a value is or spells, if it is one. -/
def Value.whole? : Value → Option Int
  | .null => none
  | .integer number => some number.toInt
  | .real x => x.whole?
  | .text content =>
    match integerOfText? content with
    | some number => some number.toInt
    | none => (realOfText? content).bind Binary64.whole?

namespace Binary64

variable {x y : Binary64} {number : Int}

theorem whole?_zero (zero : x.magnitude = 0) : x.whole? = some 0 := by
  have quanta : x.quanta = 0 := by
    rw [Binary64.quanta, zero]
    rfl
  have whole : x.isWhole = true := by
    rw [isWhole, isFinite, zero, quanta, Nat.zero_mod]
    rfl
  rw [whole?, if_pos whole, truncated, quanta, Nat.zero_div]
  split <;> rfl

/-- An integer rounds to the real that is equal to it, if there is one. -/
theorem rank_of_whole? (whole : x.whole? = some number) : x.rank = (ofInt number).rank := by
  rw [whole?] at whole
  split at whole
  · rename_i is
    cases whole
    have size := natAbs_truncated is
    have itself : nearestMagnitude (x.truncated.natAbs * quantaPerUnit) 1 = x.magnitude := by
      rw [size]
      simp only [isWhole, Bool.and_eq_true] at is
      exact nearestMagnitude_quanta (lt_infiniteMagnitude is.1)
    rw [rank_ofInt, itself, rank]
    by_cases zero : x.truncated = 0
    · rw [zero, Int.natAbs_zero, Nat.zero_mul, nearestMagnitude_small (by decide)] at itself
      rw [← itself]
      split <;> split <;> rfl
    · have sign : x.truncated < 0 ↔ x.negative = true := by
        simp only [truncated] at zero ⊢
        generalize x.quanta / quantaPerUnit = count at zero ⊢
        cases x.negative with
        | false =>
            simp only [Bool.false_eq_true, if_false, iff_false]
            omega
        | true =>
            simp only [if_true, iff_true] at zero ⊢
            omega
      simp only [sign]
  · cases whole

/-- A real that an integer rounds to is an integer. -/
theorem whole?_of_rank (finite : x.isFinite = true) (alike : x.rank = (ofInt number).rank) :
    ∃ other, x.whole? = some other := by
  rcases eq_of_rank_eq alike with rfl | ⟨zero, -⟩
  · have bound := lt_infiniteMagnitude finite
    rw [magnitude_ofInt] at bound
    have whole : (ofInt number).isWhole = true := by
      rw [isWhole, finite, quanta, magnitude_ofInt, nearestMagnitude_whole bound]
      rfl
    exact ⟨_, by rw [whole?, if_pos whole]⟩
  · exact ⟨0, whole?_zero zero⟩

end Binary64

namespace Key

variable {x : Binary64} {number : Int64}

/-- A real that is an integer within the bounds has the key of that. -/
theorem ofReal_of_whole? (whole : x.whole? = some number.toInt) : ofReal x = .integer number := by
  rw [Binary64.whole?] at whole
  split at whole
  · rename_i is
    have same := Option.some.inj whole
    have least := number.le_toInt
    have most := number.toInt_lt
    rw [ofReal, same, is, if_pos, number.ofInt_toInt]
    simp only [Bool.true_and, Bool.and_eq_true, decide_eq_true_eq]
    exact ⟨least, most⟩
  · cases whole

/-- Any other real has a key of its own. -/
theorem ofReal_of_forall_ne (apart : ∀ number : Int64, x.whole? ≠ some number.toInt) :
    ofReal x = .real x := by
  rw [ofReal]
  refine if_neg fun within => ?_
  simp only [Bool.and_eq_true, decide_eq_true_eq] at within
  obtain ⟨⟨whole, least⟩, most⟩ := within
  refine apart (Int64.ofInt x.truncated) ?_
  rw [Binary64.whole?, if_pos whole, Int64.toInt_ofInt_of_le least most]

end Key

namespace Value

variable {value first second : Value} {x y : Binary64}

/-- How a value counts that is compared by a real: its key is its integer, which rounds to the real,
or its key is the real, which is no integer within the bounds. -/
inductive Counts (value : Value) (x : Binary64) : Prop
  | integer (number : Int64) (key : value.key? = some (.integer number))
    (whole : value.whole? = some number.toInt) (alike : x.rank = (Binary64.ofInt number.toInt).rank)
  | real (key : value.key? = some (.real x)) (whole : value.whole? = x.whole?)
    (apart : ∀ number : Int64, x.whole? ≠ some number.toInt)

theorem counts_of_real (key : value.key? = some (.ofReal x)) (whole : value.whole? = x.whole?) :
    value.Counts x := by
  by_cases within : ∃ number : Int64, x.whole? = some number.toInt
  · obtain ⟨number, same⟩ := within
    exact .integer number (key.trans (congrArg some (Key.ofReal_of_whole? same)))
      (whole.trans same) (Binary64.rank_of_whole? same)
  · have apart : ∀ number : Int64, x.whole? ≠ some number.toInt := by simpa using within
    exact .real (key.trans (congrArg some (Key.ofReal_of_forall_ne apart))) whole apart

theorem counts_of_number? (number : value.number? = some x) : value.Counts x := by
  cases value with
  | null => cases number
  | integer number =>
      cases number
      exact .integer _ rfl rfl rfl
  | real x =>
      cases number
      exact counts_of_real rfl rfl
  | text content =>
      cases spelled : integerOfText? content with
      | some whole =>
          obtain ⟨y, read, alike⟩ := realOfText?_of_integerOfText? spelled
          cases read.symm.trans number
          refine .integer whole ?_ ?_ alike
          · rw [key?, Key.ofText, spelled]
          · rw [whole?, spelled]
      | none =>
          have read : realOfText? content = some x := number
          refine counts_of_real ?_ ?_
          · rw [key?, Key.ofText, spelled, read]
          · rw [whole?, spelled, read]
            rfl

/-- The integer of a value rounds to the real that it is compared by. -/
theorem Counts.rank_eq {number : Int} (counts : value.Counts x)
    (whole : value.whole? = some number) : x.rank = (Binary64.ofInt number).rank := by
  cases counts with
  | integer own _ same alike =>
      cases same.symm.trans whole
      exact alike
  | real _ same _ => exact Binary64.rank_of_whole? (same.symm.trans whole)

theorem Counts.whole?_eq_none (counts : value.Counts x) (fractional : value.whole? = none) :
    x.whole? = none := by
  cases counts with
  | integer _ _ same _ => cases same.symm.trans fractional
  | real _ same _ => exact same.symm.trans fractional

/-- A value that is no number is a word, and has the key of one. -/
theorem word_of_number? (known : value ≠ .null) (word : value.number? = none) :
    ∃ content, value = .text content ∧ realOfText? content = none ∧
      value.key? = some (.text content) ∧ value.whole? = none := by
  cases value with
  | null => exact absurd rfl known
  | integer number => cases word
  | real x => cases word
  | text content =>
      have unread : realOfText? content = none := word
      have unspelled : integerOfText? content = none := by
        by_contra spelled
        obtain ⟨number, spelled⟩ := Option.ne_none_iff_exists'.mp spelled
        obtain ⟨x, read, -⟩ := realOfText?_of_integerOfText? spelled
        cases unread.symm.trans read
      refine ⟨content, rfl, unread, ?_, ?_⟩
      · rw [key?, Key.ofText, unspelled, unread]
      · rw [whole?, unspelled, unread]
        rfl

theorem finite_of_number? (finite : value.Finite) (number : value.number? = some x) :
    x.isFinite = true := by
  cases value with
  | null => cases number
  | integer number =>
      cases number
      exact Binary64.ofInt_finite
  | real x =>
      cases number
      exact finite x rfl
  | text content => exact (Option.filter_eq_some_iff.mp number).2

/-- A number, even a real, is not written as a word is. -/
theorem written_ne_word {content : String} (finite : value.Finite) (number : value.number?.isSome)
    (word : realOfText? content = none) : value.written ≠ content := by
  cases value with
  | real x =>
      intro same
      rw [← show RealLayout.sql.text x = content from same, realOfText?_realText (finite x rfl)]
        at word
      cases word
  | _ => exact written_ne rfl number word

theorem compare?_eq_comm :
    first.compare? second = some .eq ↔ second.compare? first = some .eq := by
  rw [@compare?_swap first]
  cases second.compare? first with
  | none => simp
  | some order => cases order <;> simp

section

variable (firstFinite : first.Finite) (secondFinite : second.Finite)
include firstFinite secondFinite

/-- Numbers are equal by comparison if they round alike, unless both are integers. -/
theorem compare?_numbers (firstNumber : first.number? = some x)
    (secondNumber : second.number? = some y)
    (mixed : ¬ ∃ number other, first = .integer number ∧ second = .integer other) :
    first.compare? second = some .eq ↔ x.rank = y.rank := by
  have firstDefined := Binary64.not_isNan_of_isFinite (finite_of_number? firstFinite firstNumber)
  have secondDefined := Binary64.not_isNan_of_isFinite (finite_of_number? secondFinite secondNumber)
  rw [compare?_mixed mixed (ne_null firstNumber) (ne_null secondNumber), firstNumber, secondNumber]
  simp only [Binary64.compare?, firstDefined, secondDefined, Bool.or_self, Bool.false_eq_true,
    if_false, Option.some.injEq]
  exact compare_eq_iff_eq

theorem key?_eq_iff_numbers (firstNumber : first.number? = some x)
    (secondNumber : second.number? = some y) :
    first.key? = second.key? ↔
      first.compare? second = some .eq ∧ first.whole? = second.whole? := by
  by_cases both : ∃ number other, first = .integer number ∧ second = .integer other
  · obtain ⟨number, other, rfl, rfl⟩ := both
    simp [key?, whole?, compare?, Int64.toInt_inj]
  rw [compare?_numbers firstFinite secondFinite firstNumber secondNumber both]
  cases counts_of_number? firstNumber with
  | integer number key whole alike =>
      cases counts_of_number? secondNumber with
      | integer other otherKey otherWhole otherAlike =>
          rw [key, otherKey, whole, otherWhole, alike, otherAlike]
          simp only [Option.some.injEq, Key.integer.injEq, Int64.toInt_inj]
          exact ⟨fun same => ⟨by rw [same], same⟩, And.right⟩
      | real otherKey otherWhole apart =>
          rw [key, otherKey, whole, otherWhole]
          simp [Ne.symm (apart number)]
  | real key whole apart =>
      cases counts_of_number? secondNumber with
      | integer other otherKey otherWhole otherAlike =>
          rw [key, otherKey, whole, otherWhole]
          simp [apart other]
      | real otherKey otherWhole otherApart =>
          rw [key, otherKey, whole, otherWhole]
          simp only [Option.some.injEq, Key.real.injEq]
          refine ⟨fun same => by rw [same]; exact ⟨rfl, rfl⟩, fun same => ?_⟩
          rcases Binary64.eq_of_rank_eq same.1 with is | zeros
          · exact is
          · exact absurd (Binary64.whole?_zero zeros.1) (apart 0)

omit firstFinite in
/-- A word is equal to nothing else by comparison. -/
theorem compare?_word (firstKnown : first ≠ .null) (secondKnown : second ≠ .null)
    (word : first.number? = none) : first.compare? second = some .eq ↔ first = second := by
  obtain ⟨content, rfl, unread, -, -⟩ := word_of_number? firstKnown word
  have compared : (Value.text content).compare? second = some .eq ↔ content = second.written := by
    rw [compare?_mixed (by simp) firstKnown secondKnown, word]
    exact (Option.some.injEq _ _).to_iff.trans compare_eq_iff_eq
  rw [compared]
  cases number : second.number? with
  | none =>
      obtain ⟨other, rfl, -⟩ := word_of_number? secondKnown number
      simp [written]
  | some y =>
      have unlike := written_ne_word secondFinite (by rw [number]; rfl) unread
      refine ⟨fun same => absurd same.symm unlike, fun same => ?_⟩
      rw [← same, word] at number
      cases number

theorem key?_eq_iff_word (firstKnown : first ≠ .null) (secondKnown : second ≠ .null)
    (word : first.number? = none) :
    first.key? = second.key? ↔
      first.compare? second = some .eq ∧ first.whole? = second.whole? := by
  rw [compare?_word secondFinite firstKnown secondKnown word]
  refine ⟨fun same => ?_, fun same => same.1 ▸ rfl⟩
  obtain ⟨content, rfl, -, key, -⟩ := word_of_number? firstKnown word
  rw [key] at same
  cases number : second.number? with
  | none =>
      obtain ⟨other, rfl, -, otherKey, -⟩ := word_of_number? secondKnown number
      rw [otherKey] at same
      cases same
      exact ⟨rfl, rfl⟩
  | some y =>
      cases counts_of_number? number with
      | integer other otherKey _ _ => cases same.trans otherKey
      | real otherKey _ _ => cases same.trans otherKey

/-- Values have one key where they are equal by comparison and are no different integers. -/
theorem key?_eq_iff (firstKnown : first ≠ .null) (secondKnown : second ≠ .null) :
    first.key? = second.key? ↔
      first.compare? second = some .eq ∧ first.whole? = second.whole? := by
  cases firstNumber : first.number? with
  | none => exact key?_eq_iff_word firstFinite secondFinite firstKnown secondKnown firstNumber
  | some x =>
      cases secondNumber : second.number? with
      | some y => exact key?_eq_iff_numbers firstFinite secondFinite firstNumber secondNumber
      | none =>
          have turned :=
            key?_eq_iff_word secondFinite firstFinite secondKnown firstKnown secondNumber
          rw [compare?_eq_comm, eq_comm, turned, eq_comm (a := second.whole?)]

/-- Values that are equal by comparison are the same integer or none, unless they are integers of
more than 53 binary digits. -/
theorem whole?_of_compare? (firstKnown : first ≠ .null) (secondKnown : second ≠ .null)
    (equal : first.compare? second = some .eq) (apart : first.whole? ≠ second.whole?) :
    ∃ number other, first.whole? = some number ∧ second.whole? = some other ∧
      2 ^ 53 ≤ number.natAbs ∧ 2 ^ 53 ≤ other.natAbs := by
  cases firstNumber : first.number? with
  | none =>
      have same := (compare?_word secondFinite firstKnown secondKnown firstNumber).mp equal
      exact absurd (congrArg whole? same) apart
  | some x =>
      cases secondNumber : second.number? with
      | none =>
          have same := (compare?_word firstFinite secondKnown firstKnown secondNumber).mp
            (compare?_eq_comm.mp equal)
          exact absurd (congrArg whole? same).symm apart
      | some y =>
          have firstCounts := counts_of_number? firstNumber
          have secondCounts := counts_of_number? secondNumber
          by_cases both : ∃ number other, first = .integer number ∧ second = .integer other
          · obtain ⟨number, other, rfl, rfl⟩ := both
            simp only [compare?, Option.some.injEq, compare_eq_iff_eq, Int64.toInt_inj] at equal
            exact absurd (equal ▸ rfl) apart
          have alike := (compare?_numbers firstFinite secondFinite firstNumber secondNumber both).mp
            equal
          cases firstWhole : first.whole? with
          | none =>
              cases secondWhole : second.whole? with
              | none => exact absurd (firstWhole.trans secondWhole.symm) apart
              | some other =>
                  obtain ⟨number, whole⟩ := Binary64.whole?_of_rank
                    (finite_of_number? firstFinite firstNumber)
                    (alike.trans (secondCounts.rank_eq secondWhole))
                  cases whole.symm.trans (firstCounts.whole?_eq_none firstWhole)
          | some number =>
              have rounded := firstCounts.rank_eq firstWhole
              cases secondWhole : second.whole? with
              | none =>
                  obtain ⟨other, whole⟩ := Binary64.whole?_of_rank
                    (finite_of_number? secondFinite secondNumber) (alike.symm.trans rounded)
                  cases whole.symm.trans (secondCounts.whole?_eq_none secondWhole)
              | some other =>
                  have same := (rounded.symm.trans alike).trans (secondCounts.rank_eq secondWhole)
                  have differ : number ≠ other := fun same =>
                    apart (by rw [firstWhole, secondWhole, same])
                  exact ⟨number, other, rfl, rfl, Binary64.le_natAbs_of_rank_eq same differ,
                    Binary64.le_natAbs_of_rank_eq same.symm differ.symm⟩

end

end Value

/-! ## Lookups and conditions -/

namespace Relation

variable {relation : Relation} {position place : Nat} {value : Value} {row : Row} {column : Column}

/-- The condition that a column is equal to a value. -/
def equalTo (position : Nat) (value : Value) : Predicate :=
  .compare .equal (.column position) (.constant value)

theorem selects_equalTo :
    relation.selects (equalTo position value) row = true ↔
      ((relation.schema.tuple row).getD position .null).compare? value = some .eq := by
  rw [selects, equalTo, Predicate.evaluate, Value.compares, beq_iff_eq, Option.map_eq_some_iff]
  simp only [Operand.value, Comparison.holds, beq_iff_eq]
  constructor
  · rintro ⟨_, held, rfl⟩
    exact held
  · intro held
    exact ⟨.eq, held, rfl⟩

theorem finite_getD (wellFormed : relation.WellFormed) (stored : row ∈ relation.rows) :
    ((relation.schema.tuple row).getD position .null).Finite := by
  rw [List.getD_eq_getElem?_getD]
  cases held : (relation.schema.tuple row)[position]? with
  | none => exact nofun
  | some value =>
      have within : position < relation.schema.columns.length := by
        rw [← @Table.length_tuple _ row]
        exact (List.getElem?_eq_some_iff.mp held).1
      have pair : (relation.schema.columns[position], value) ∈
          relation.schema.columns.zip (relation.schema.tuple row) :=
        List.mem_iff_getElem?.mpr ⟨position, List.getElem?_zip_eq_some.mpr
          ⟨List.getElem?_eq_getElem within, held⟩⟩
      obtain ⟨-, each⟩ := Table.checkTuple_eq_ok_iff.mp (wellFormed.rowsHeld row stored).values
      exact (Column.checkValue_eq_ok_iff.mp (each _ pair)).2

/-- A lookup finds the rows that are selected by comparison and have no different integer. -/
theorem mem_lookup_iff (wellFormed : relation.WellFormed) (finite : value.Finite)
    (known : value ≠ .null) :
    place ∈ relation.lookup position value ↔
      ∃ row, relation.rows[place]? = some row ∧
        relation.selects (equalTo position value) row = true ∧
        ((relation.schema.tuple row).getD position .null).whole? = value.whole? := by
  rw [mem_lookup wellFormed.indexed, keyAt, keyAmong]
  cases found : relation.rows[place]? with
  | none => simp
  | some row =>
      have held : keyOf relation.schema row position =
          ((relation.schema.tuple row).getD position .null).key? := by
        rw [keyOf, List.getD_eq_getElem?_getD]
        cases (relation.schema.tuple row)[position]? <;> rfl
      have stored := List.mem_of_getElem? found
      have storedFinite := @finite_getD relation position row wellFormed stored
      simp only [Option.bind_some, held, Option.some.injEq, exists_eq_left', selects_equalTo]
      cases missing : (relation.schema.tuple row).getD position .null with
      | null => simp [Value.key?, Value.compare?]
      | _ =>
          rw [missing] at storedFinite
          rw [← Value.key?_eq_iff storedFinite finite Value.noConfusion known]
          constructor
          · rintro ⟨key, own, same⟩
            exact same.trans own.symm
          · intro same
            cases value with
            | null => exact absurd rfl known
            | _ => exact ⟨_, rfl, same⟩

end Relation

namespace Database

variable {database : Database} {relation : Relation} {name : String} {column : Column}
variable {position : Nat}

/-- Values have one key just when they are equal by comparison and are the same integer or no
integers; those that are equal and have different keys are different integers of more than 53 binary
digits. So a lookup in a column finds the rows that are selected where the column is equal to the
value, without those that hold another integer. -/
theorem lookup_finds_selected_whole (reached : database.Reachable)
    (found : database.state.store.relation name = .ok relation)
    (located : relation.schema.columns[position]? = some column) :
    (∀ first second : Value, first.Finite → second.Finite → first ≠ .null → second ≠ .null →
      (first.key? = second.key? ↔
        first.compare? second = some .eq ∧ first.whole? = second.whole?) ∧
      (first.compare? second = some .eq → first.key? ≠ second.key? →
        ∃ number other, first.whole? = some number ∧ second.whole? = some other ∧
          number ≠ other ∧ 2 ^ 53 ≤ number.natAbs ∧ 2 ^ 53 ≤ other.natAbs)) ∧
    ∀ value : Value, value.Finite → value ≠ .null → ∃ predicate,
      Predicate.ofExpression [value] (Scope.ofTable relation.schema none).resolve
          (.binary .equal (.field none column.name) (.parameter 0)) = .ok predicate ∧
      ∀ place, place ∈ relation.lookup position value ↔
        ∃ row, relation.rows[place]? = some row ∧ relation.selects predicate row = true ∧
          ((row.get? column.name).getD .null).whole? = value.whole? := by
  have formed := reached.wellFormed.current.store.relations _ (Store.relation_eq_ok_iff.mp found)
  refine ⟨fun first second firstFinite secondFinite firstKnown secondKnown => ?_,
    fun value finite known => ⟨Relation.equalTo position value, ?_, fun place => ?_⟩⟩
  · have keyed := Value.key?_eq_iff firstFinite secondFinite firstKnown secondKnown
    refine ⟨keyed, fun equal differ => ?_⟩
    have apart : first.whole? ≠ second.whole? := fun same => differ (keyed.mpr ⟨equal, same⟩)
    obtain ⟨number, other, firstWhole, secondWhole, large⟩ :=
      Value.whole?_of_compare? firstFinite secondFinite firstKnown secondKnown equal apart
    refine ⟨number, other, firstWhole, secondWhole, fun same => apart ?_, large⟩
    rw [firstWhole, secondWhole, same]
  · simp only [Predicate.ofExpression, Predicate.reading, Predicate.ofComparison,
      Operand.ofExpression, Scope.resolve_column formed.distinct located]
    rfl
  · rw [Relation.mem_lookup_iff formed finite known]
    simp only [getD_tuple located]

/-- The real that an integer beyond 53 binary digits rounds to selects it but is not found. -/
theorem lookup_misses_selected_neighbour :
    let database := fromTexts ["CREATE TABLE t (id INTEGER PRIMARY KEY)",
      "INSERT INTO t VALUES (9007199254740993)"]
    let value := Value.real (.ofInt 9007199254740992)
    ∃ relation column predicate row, database.state.store.relation "t" = .ok relation ∧
      relation.schema.columns[0]? = some column ∧ relation.schema.uniqueColumns = [0] ∧
      value.Finite ∧ value ≠ .null ∧
      (Value.integer 9007199254740993).compare? value = some .eq ∧
      (Value.integer 9007199254740993).key? ≠ value.key? ∧
      Predicate.ofExpression [value] (Scope.ofTable relation.schema none).resolve
        (.binary .equal (.field none column.name) (.parameter 0)) = .ok predicate ∧
      relation.rows[0]? = some row ∧ relation.selects predicate row = true ∧
      0 ∉ relation.lookup 0 value := by
  intro database value
  have reached : database.Reachable := fromTexts_reachable
  have facts : (database.state.store.relation "t").map (fun relation =>
        (relation.rows, relation.schema.columns, relation.schema.uniqueColumns,
          Predicate.ofExpression [value] (Scope.ofTable relation.schema none).resolve
            (.binary .equal (.field none "id") (.parameter 0)))) =
      .ok ([⟨[("id", .integer 9007199254740993)]⟩], [Table.implicitKey],
        [0], .ok (Relation.equalTo 0 value)) := by decide +kernel
  obtain ⟨relation, found, facts⟩ := map_eq_ok_iff.mp facts
  simp only [Prod.mk.injEq] at facts
  obtain ⟨rows, columns, unique, resolved⟩ := facts
  have located : relation.schema.columns[0]? = some Table.implicitKey := by
    rw [columns]
    rfl
  have finite : value.Finite := by
    intro x same
    rw [← Value.real.inj same]
    decide +kernel
  have equal : (Value.integer 9007199254740993).compare? value = some .eq := by decide +kernel
  have apart : (Value.integer 9007199254740993).whole? ≠ value.whole? := by decide +kernel
  obtain ⟨keys, lookups⟩ := lookup_finds_selected_whole reached found located
  obtain ⟨keyed, -⟩ := keys (.integer 9007199254740993) value nofun finite nofun nofun
  obtain ⟨_, -, finds⟩ := lookups value finite nofun
  refine ⟨relation, _, _, _, found, located, unique, finite, nofun, equal,
    fun same => apart (keyed.mp same).2, resolved, by rw [rows]; rfl, ?_, fun listed => ?_⟩
  · rw [Relation.selects_equalTo, Table.tuple, Table.columnNames, columns]
    exact equal
  · obtain ⟨row, stored, -, same⟩ := (finds 0).mp listed
    rw [rows] at stored
    obtain rfl := Option.some.inj stored
    exact apart same

end Database

end Coffer
