import Mathlib.Algebra.GroupWithZero.Nat
import Mathlib.Data.List.Forall2
import Mathlib.Data.List.Induction
import Coffer.Query.Execution

namespace Coffer

/-! # Groups of rows

Rows with equal keys form one group, in the place where their key first appears, and an aggregate
runs over the rows of a group from the first to the last. An undefined real is equal to nothing,
so a row with one in its key is alone in its group.
-/

/-- Whether a value is equal to itself, as all are but undefined reals. -/
def Value.isDefined : Value → Bool
  | .real x => !x.isNan
  | _ => true

/-- The keys of rows, each once, in the order in which they first appear. Without operands to
group by there is one key, whatever the rows. -/
def keysAmong (keys : List Operand) (rows : List Tuple) : List Tuple :=
  if keys.isEmpty then [[]] else (rows.map (groupKey keys)).eraseDupsBy sameTuple

/-- The rows that have a key, in their order. -/
def rowsUnder (keys : List Operand) (rows : List Tuple) (key : Tuple) : List Tuple :=
  rows.filter fun row => sameTuple key (groupKey keys row)

/-- Whether a group is one of the given rows: all of those with its key, or, where the key is not
equal to itself, only the one that has it. -/
structure Group.Collects (keys : List Operand) (rows : List Tuple) (group : Group) : Prop where
  defined : group.key.all Value.isDefined = true → group.rows = rowsUnder keys rows group.key
  undefined : group.key.all Value.isDefined = false →
    ∃ row ∈ rows, group = ⟨groupKey keys row, [row]⟩

/-- The state of an aggregate between two rows. -/
inductive Accumulator where
  /-- How many values there were, with or without the nulls. -/
  | count (nulls : Bool) (found : Int64)
  | sum (running : RunningSum)
  | mean (total : Binary64) (found : Nat)
  | extreme (wanted : Ordering) (value : Value)

namespace Accumulator

def start : Aggregate → Accumulator
  | .rows => .count true 0
  | .count => .count false 0
  | .sum => .sum .start
  | .average => .mean .zero 0
  | .least => .extreme .lt .null
  | .greatest => .extreme .gt .null

def add : Accumulator → Value → Accumulator
  | .count nulls found, value => .count nulls (if nulls || !value.isNull then found + 1 else found)
  | state, .null => state
  | .sum running, value => .sum (running.add value)
  | .mean total found, value => .mean (total.add (RunningSum.term value)) (found + 1)
  | .extreme wanted current, value =>
    .extreme wanted
      (if current.isNull || value.compare? current == some wanted then value else current)

def finish : Accumulator → Value
  | .count _ found => .integer found
  | .sum running => running.finish
  | .mean _ 0 => .null
  | .mean total found => .real (total.div (.ofInt found))
  | .extreme _ value => value

end Accumulator

/-- The value of an aggregate after one value after another. -/
def Aggregate.fold (aggregate : Aggregate) (values : List Value) : Value :=
  (values.foldl Accumulator.add (.start aggregate)).finish

/-- Whether a value is the first integer among others in an order; a null if there is none. -/
def IsFirstInteger (before : Int64 → Int64 → Prop) (values : List Value) : Value → Prop
  | .integer number =>
    .integer number ∈ values ∧ ∀ other, .integer other ∈ values → before number other
  | .null => ∀ other, .integer other ∉ values
  | _ => False

/-! ## Equality of keys -/

namespace Binary64

theorem equals_iff {x y : Binary64} :
    x.equals y = true ↔ x.isNan = false ∧ y.isNan = false ∧ x.rank = y.rank := by
  rw [equals, compare?]
  cases x.isNan <;> cases y.isNan <;> simp

end Binary64

namespace Value

variable {first second third : Value}

theorem same_symm (same : first.same second = true) : second.same first = true := by
  cases first <;> cases second <;> simp_all [Value.same, Binary64.equals_iff]

theorem same_trans (left : first.same second = true) (right : second.same third = true) :
    first.same third = true := by
  cases first <;> cases second <;> cases third <;> simp_all [Value.same, Binary64.equals_iff]

theorem same_self : first.same first = true ↔ first.isDefined = true := by
  cases first <;> simp [same, isDefined, Binary64.equals_iff]

end Value

section

variable {first second third : Tuple}

theorem sameTuple_iff :
    sameTuple first second = true ↔ List.Forall₂ (fun x y => x.same y = true) first second := by
  simp [sameTuple, List.forall₂_iff_zip]

theorem sameTuple_symm (same : sameTuple first second = true) :
    sameTuple second first = true := by
  rw [sameTuple_iff] at same ⊢
  exact (same.imp fun _ _ => Value.same_symm).flip

theorem sameTuple_comm : sameTuple first second = sameTuple second first :=
  Bool.eq_iff_iff.mpr ⟨sameTuple_symm, sameTuple_symm⟩

theorem sameTuple_trans (left : sameTuple first second = true)
    (right : sameTuple second third = true) : sameTuple first third = true := by
  rw [sameTuple_iff] at left right ⊢
  induction left generalizing third with
  | nil => exact right
  | cons same _ ih =>
      obtain ⟨value, rest, other, others, rfl⟩ := List.forall₂_cons_left_iff.mp right
      exact .cons (Value.same_trans same other) (ih others)

theorem sameTuple_self : sameTuple first first = true ↔ first.all Value.isDefined = true := by
  rw [sameTuple_iff, List.forall₂_same, List.all_eq_true]
  simp only [Value.same_self]

end

/-! ## First occurrences -/

section

variable {α : Type} {same : α → α → Bool} {items found : List α} {item : α}

theorem eraseDupsBy_loop_append (others : List α) :
    List.eraseDupsBy.loop same (items ++ others) found =
      List.eraseDupsBy.loop same others (List.eraseDupsBy.loop same items found).reverse := by
  induction items generalizing found with
  | nil => simp [List.eraseDupsBy.loop]
  | cons item rest ih =>
      rw [List.cons_append, List.eraseDupsBy.loop, List.eraseDupsBy.loop]
      split
      · exact ih
      · exact ih

/-- The last item is kept if none of those before is equal to it. -/
theorem eraseDupsBy_concat :
    (items ++ [item]).eraseDupsBy same =
      if (items.eraseDupsBy same).any (same item) then items.eraseDupsBy same
      else items.eraseDupsBy same ++ [item] := by
  rw [List.eraseDupsBy, eraseDupsBy_loop_append, List.eraseDupsBy.loop, ← List.eraseDupsBy,
    List.any_reverse]
  cases (items.eraseDupsBy same).any (same item) <;> simp [List.eraseDupsBy.loop]

end

/-! ## Groups -/

section

variable {keys : List Operand} {rows : List Tuple} {row key : Tuple} {group : Group}
variable {groups : List Group}

theorem keysAmong_concat :
    keysAmong keys (rows ++ [row]) =
      if (keysAmong keys rows).any fun key => sameTuple key (groupKey keys row) then
        keysAmong keys rows
      else keysAmong keys rows ++ [groupKey keys row] := by
  cases keys with
  | nil => rfl
  | cons operand others =>
      have swapped : (fun key => sameTuple key (groupKey (operand :: others) row)) =
          sameTuple (groupKey (operand :: others) row) := funext fun _ => sameTuple_comm
      simp only [keysAmong, List.isEmpty_cons, Bool.false_eq_true, if_false, List.map_append,
        List.map_singleton, eraseDupsBy_concat, swapped]

/-- No two keys are equal. -/
theorem keysAmong_distinct (keys : List Operand) (rows : List Tuple) :
    (keysAmong keys rows).Pairwise fun first second => sameTuple first second = false := by
  induction rows using List.reverseRecOn with
  | nil => cases keys <;> simp [keysAmong]
  | append_singleton rows row ih =>
      rw [keysAmong_concat]
      split
      · exact ih
      · rename_i fresh
        refine List.pairwise_append.mpr ⟨ih, List.pairwise_singleton _ _, fun key member => ?_⟩
        simpa using fun same => fresh (List.any_eq_true.mpr ⟨key, member, same⟩)

/-- Every key that is equal to itself is listed. -/
theorem exists_keysAmong (member : row ∈ rows)
    (defined : sameTuple (groupKey keys row) (groupKey keys row) = true) :
    ∃ key ∈ keysAmong keys rows, sameTuple key (groupKey keys row) = true := by
  induction rows using List.reverseRecOn with
  | nil => cases member
  | append_singleton rows last ih =>
      rw [keysAmong_concat]
      rcases List.mem_append.mp member with former | added
      · obtain ⟨key, listed, same⟩ := ih former
        refine ⟨key, ?_, same⟩
        split
        · exact listed
        · exact List.mem_append_left _ listed
      · cases List.mem_singleton.mp added
        split
        · rename_i present
          exact List.any_eq_true.mp present
        · exact ⟨_, List.mem_append_right _ (List.mem_singleton.mpr rfl), defined⟩

/-- A row joins the group with its key, or makes one behind all others. -/
theorem addToGroup_eq
    (distinct : groups.Pairwise fun first second => sameTuple first.key second.key = false) :
    addToGroup key row groups =
      if groups.any fun group => sameTuple group.key key then
        groups.map fun group =>
          if sameTuple group.key key then ⟨group.key, group.rows ++ [row]⟩ else group
      else groups ++ [⟨key, [row]⟩] := by
  induction groups with
  | nil => rfl
  | cons group rest ih =>
      obtain ⟨apart, distinct⟩ := List.pairwise_cons.mp distinct
      rw [addToGroup]
      by_cases same : sameTuple group.key key = true
      · -- The key is that of no other group, so the rest stays as it is.
        have others : ∀ other ∈ rest, (if sameTuple other.key key = true then
            (⟨other.key, other.rows ++ [row]⟩ : Group) else other) = other := by
          intro other member
          refine if_neg fun shared => ?_
          have equal := sameTuple_trans same (sameTuple_symm shared)
          rw [apart other member] at equal
          cases equal
        rw [if_pos same, List.any_cons, same, Bool.true_or, if_pos rfl, List.map_cons, if_pos same,
          List.map_congr_left others, List.map_id']
      · rw [if_neg same, ih distinct, List.any_cons, Bool.eq_false_iff.mpr same, Bool.false_or,
          List.map_cons]
        split <;> rfl

namespace Group.Collects

theorem joined (collects : group.Collects keys rows)
    (same : sameTuple group.key (groupKey keys row) = true) :
    (Group.mk group.key (group.rows ++ [row])).Collects keys (rows ++ [row]) := by
  have defined : group.key.all Value.isDefined = true :=
    sameTuple_self.mp (sameTuple_trans same (sameTuple_symm same))
  refine ⟨fun _ => ?_, fun undefined => ?_⟩
  · simp [rowsUnder, collects.defined defined, same]
  · rw [defined] at undefined
    cases undefined

theorem passed (collects : group.Collects keys rows)
    (apart : sameTuple group.key (groupKey keys row) = false) :
    group.Collects keys (rows ++ [row]) := by
  refine ⟨fun defined => ?_, fun undefined => ?_⟩
  · simp [rowsUnder, collects.defined defined, apart]
  · obtain ⟨former, member, same⟩ := collects.undefined undefined
    exact ⟨former, List.mem_append_left _ member, same⟩

theorem opened
    (fresh : ∀ other ∈ rows, sameTuple (groupKey keys row) (groupKey keys other) = false) :
    (Group.mk (groupKey keys row) [row]).Collects keys (rows ++ [row]) := by
  refine ⟨fun defined => ?_, fun _ => ⟨row, by simp, rfl⟩⟩
  have none : rows.filter (fun other => sameTuple (groupKey keys row) (groupKey keys other)) = [] :=
    List.filter_eq_nil_iff.mpr fun other member => by simp [fresh other member]
  simp [rowsUnder, none, sameTuple_self.mpr defined]

end Group.Collects

/-- The groups of rows have the keys of the rows, and each of them the rows with its key. -/
theorem groupsOf_collects (keys : List Operand) (rows : List Tuple) :
    (groupsOf keys rows).map Group.key = keysAmong keys rows ∧
      ∀ group ∈ groupsOf keys rows, group.Collects keys rows := by
  induction rows using List.reverseRecOn with
  | nil =>
      cases keys with
      | nil =>
          refine ⟨rfl, fun group member => ?_⟩
          cases List.mem_singleton.mp member
          exact ⟨fun _ => rfl, fun undefined => by cases undefined⟩
      | cons operand others => exact ⟨rfl, by simp [groupsOf]⟩
  | append_singleton rows row ih =>
      obtain ⟨listed, collects⟩ := ih
      have distinct := keysAmong_distinct keys rows
      rw [← listed, List.pairwise_map] at distinct
      have grown : groupsOf keys (rows ++ [row]) =
          addToGroup (groupKey keys row) row (groupsOf keys rows) := by
        simp [groupsOf, List.foldl_append]
      have same : (keysAmong keys rows).any (fun key => sameTuple key (groupKey keys row)) =
          (groupsOf keys rows).any fun group => sameTuple group.key (groupKey keys row) := by
        rw [← listed, List.any_map]
        rfl
      rw [grown, addToGroup_eq distinct, keysAmong_concat, same]
      split
      · refine ⟨?_, fun group member => ?_⟩
        · rw [← listed, List.map_map]
          refine List.map_congr_left fun group _ => ?_
          rw [Function.comp]
          split <;> rfl
        · obtain ⟨former, held, rfl⟩ := List.mem_map.mp member
          split
          · rename_i shared
            exact (collects former held).joined shared
          · rename_i apart
            exact (collects former held).passed (Bool.eq_false_iff.mpr apart)
      · rename_i fresh
        have apart : ∀ group ∈ groupsOf keys rows,
            sameTuple group.key (groupKey keys row) = false := by simpa using fresh
        refine ⟨by rw [← listed, List.map_append]; rfl, fun group member => ?_⟩
        rcases List.mem_append.mp member with former | added
        · exact (collects group former).passed (apart group former)
        · cases List.mem_singleton.mp added
          refine .opened fun other member => Bool.eq_false_iff.mpr fun shared => ?_
          have defined := sameTuple_trans (sameTuple_symm shared) shared
          obtain ⟨key, present, found⟩ := exists_keysAmong member defined
          rw [← listed] at present
          obtain ⟨holder, held, rfl⟩ := List.mem_map.mp present
          have joined := sameTuple_trans found (sameTuple_symm shared)
          rw [apart holder held] at joined
          cases joined

/-- Every row is in one group. -/
theorem groupsOf_perm (keys : List Operand) (rows : List Tuple) :
    ((groupsOf keys rows).flatMap Group.rows).Perm rows := by
  have added (key row : Tuple) (groups : List Group) :
      ((addToGroup key row groups).flatMap Group.rows).Perm
        (groups.flatMap Group.rows ++ [row]) := by
    induction groups with
    | nil => exact .refl _
    | cons group rest ih =>
        rw [addToGroup]
        split
        · simp only [List.flatMap_cons, List.append_assoc]
          exact .append_left _ List.perm_append_comm
        · simp only [List.flatMap_cons, List.append_assoc]
          exact .append_left _ ih
  induction rows using List.reverseRecOn with
  | nil => cases keys <;> exact .refl _
  | append_singleton rows row ih =>
      rw [groupsOf, List.foldl_append, List.foldl_cons, List.foldl_nil]
      exact (added _ row _).trans (.append_right _ ih)

end

/-! ## Aggregates -/

namespace Accumulator

variable {values : List Value} {before : Int64 → Int64 → Prop} {wanted : Ordering}

theorem foldl_count {nulls : Bool} {found : Int64} :
    values.foldl add (.count nulls found) = .count nulls
      (found + Int64.ofNat (values.countP fun value => nulls || !value.isNull)) := by
  induction values generalizing found with
  | nil => simp
  | cons value rest ih =>
      rw [List.foldl_cons, add, ih, List.countP_cons]
      split
      · rw [Int64.ofNat_add, Int64.add_assoc, Int64.add_comm 1]
        rfl
      · rfl

theorem foldl_sum {running : RunningSum} :
    values.foldl add (.sum running) =
      .sum ((values.filter fun value => !value.isNull).foldl RunningSum.add running) := by
  induction values generalizing running with
  | nil => rfl
  | cons value rest ih => cases value <;> exact ih

theorem foldl_mean {total : Binary64} {found : Nat} :
    values.foldl add (.mean total found) =
      .mean ((values.filter fun value => !value.isNull).foldl
        (fun sum value => sum.add (RunningSum.term value)) total)
        (found + (values.filter fun value => !value.isNull).length) := by
  induction values generalizing total found with
  | nil => rfl
  | cons value rest ih =>
      cases value with
      | null => exact ih
      | _ => exact ih.trans (congrArg (Accumulator.mean _) (Nat.succ_add _ _))

theorem foldl_extreme {current : Value} :
    values.foldl add (.extreme wanted current) =
      .extreme wanted ((values.filter fun value => !value.isNull).foldl
        (fun found value =>
          if found.isNull || value.compare? found == some wanted then value else found)
        current) := by
  induction values generalizing current with
  | nil => rfl
  | cons value rest ih => cases value <;> exact ih

end Accumulator

namespace Aggregate

variable {values : List Value} {before : Int64 → Int64 → Prop}

/-- The value of an aggregate is what it has come to after the last row. -/
theorem value_eq_fold (aggregate : Aggregate) (values : List Value) :
    aggregate.value values = aggregate.fold values := by
  cases aggregate with
  | rows => simp [value, fold, Accumulator.start, Accumulator.foldl_count, Accumulator.finish]
  | count =>
      simp [value, fold, Accumulator.start, Accumulator.foldl_count, Accumulator.finish,
        List.countP_eq_length_filter]
  | sum => simp only [value, fold, Accumulator.start, Accumulator.foldl_sum, Accumulator.finish]
  | average =>
      rw [value, fold, Accumulator.start, Accumulator.foldl_mean, mean, Nat.zero_add]
      cases values.filter fun value => !value.isNull <;> rfl
  | least => simp only [value, fold, Accumulator.start, Accumulator.foldl_extreme,
      Accumulator.finish, extreme]
  | greatest => simp only [value, fold, Accumulator.start, Accumulator.foldl_extreme,
      Accumulator.finish, extreme]

theorem fold_rows : Aggregate.rows.fold values = .integer (Int64.ofNat values.length) :=
  (value_eq_fold .rows values).symm

theorem fold_count : Aggregate.count.fold values =
    .integer (Int64.ofNat (values.countP fun value => !value.isNull)) := by
  rw [List.countP_eq_length_filter]
  exact (value_eq_fold .count values).symm

end Aggregate

/-- Of integers and nulls, the one that is kept is before all others. -/
theorem isFirstInteger_foldl {before : Int64 → Int64 → Prop} {wanted : Ordering}
    {values : List Value}
    (ahead : ∀ first second : Int64, compare first.toInt second.toInt = wanted →
      before first second)
    (behind : ∀ first second : Int64, compare first.toInt second.toInt ≠ wanted →
      before second first)
    (trans : ∀ first second third, before first second → before second third →
      before first third)
    (whole : ∀ value ∈ values, value = .null ∨ ∃ number, value = .integer number) :
    ∃ kept, values.foldl Accumulator.add (.extreme wanted .null) = .extreme wanted kept ∧
      IsFirstInteger before values kept := by
  have self (number : Int64) : before number number := by
    by_cases same : compare number.toInt number.toInt = wanted
    · exact ahead number number same
    · exact behind number number same
  induction values using List.reverseRecOn with
  | nil => exact ⟨.null, rfl, fun _ => List.not_mem_nil⟩
  | append_singleton values value ih =>
      obtain ⟨earlier, last⟩ := List.forall_mem_append.mp whole
      obtain ⟨kept, folded, first⟩ := ih earlier
      rw [List.foldl_append, folded, List.foldl_cons, List.foldl_nil]
      rcases last value (List.mem_singleton.mpr rfl) with rfl | ⟨number, rfl⟩
      · have same (number : Int64) :
            .integer number ∈ values ++ [Value.null] ↔ .integer number ∈ values := by
          rw [List.mem_append, List.mem_singleton]
          exact or_iff_left fun equal => by cases equal
        refine ⟨kept, rfl, ?_⟩
        cases kept with
        | null => exact fun other => (same other).not.mpr (first other)
        | integer current =>
            exact ⟨(same current).mpr first.1,
              fun other member => first.2 other ((same other).mp member)⟩
        | _ => exact first
      · cases kept with
        | null =>
            refine ⟨.integer number, rfl, by simp, fun other member => ?_⟩
            rcases List.mem_append.mp member with former | added
            · exact absurd former (first other)
            · cases List.mem_singleton.mp added
              exact self number
        | integer current =>
            obtain ⟨present, least⟩ := first
            by_cases better : compare number.toInt current.toInt = wanted
            · refine ⟨.integer number, ?_, by simp, fun other member => ?_⟩
              · simp [Accumulator.add, Value.isNull, Value.compare?, better]
              · rcases List.mem_append.mp member with former | added
                · exact trans _ _ _ (ahead _ _ better) (least other former)
                · cases List.mem_singleton.mp added
                  exact self number
            · refine ⟨.integer current, ?_, by simp [present], fun other member => ?_⟩
              · simp [Accumulator.add, Value.isNull, Value.compare?, better]
              · rcases List.mem_append.mp member with former | added
                · exact least other former
                · cases List.mem_singleton.mp added
                  exact behind _ _ better
        | real => exact first.elim
        | text => exact first.elim

namespace Aggregate

variable {values : List Value}

theorem fold_least (whole : ∀ value ∈ values, value = .null ∨ ∃ number, value = .integer number) :
    IsFirstInteger (· ≤ ·) values (Aggregate.least.fold values) := by
  have ahead (first second : Int64) (less : compare first.toInt second.toInt = .lt) :
      first ≤ second :=
    Int64.le_iff_toInt_le.mpr (Int.le_of_lt (Int.compare_eq_lt.mp less))
  have behind (first second : Int64) (other : compare first.toInt second.toInt ≠ .lt) :
      second ≤ first :=
    Int64.le_iff_toInt_le.mpr (Int.not_lt.mp (other ∘ Int.compare_eq_lt.mpr))
  obtain ⟨kept, folded, first⟩ :=
    isFirstInteger_foldl ahead behind (fun _ _ _ => Int64.le_trans) whole
  rw [fold, Accumulator.start, folded]
  exact first

theorem fold_greatest
    (whole : ∀ value ∈ values, value = .null ∨ ∃ number, value = .integer number) :
    IsFirstInteger (fun first second => second ≤ first) values
      (Aggregate.greatest.fold values) := by
  have ahead (first second : Int64) (greater : compare first.toInt second.toInt = .gt) :
      second ≤ first :=
    Int64.le_iff_toInt_le.mpr (Int.le_of_lt (Int.compare_eq_gt.mp greater))
  have behind (first second : Int64) (other : compare first.toInt second.toInt ≠ .gt) :
      first ≤ second :=
    Int64.le_iff_toInt_le.mpr (Int.not_lt.mp (other ∘ Int.compare_eq_gt.mpr))
  obtain ⟨kept, folded, first⟩ :=
    isFirstInteger_foldl ahead behind (fun _ _ _ left right => Int64.le_trans right left) whole
  rw [fold, Accumulator.start, folded]
  exact first

end Aggregate

theorem Operand.isDefined_value {row : Tuple} (operand : Operand)
    (rowDefined : row.all Value.isDefined = true)
    (constantDefined : ∀ value, operand = .constant value → value.isDefined = true) :
    (operand.value row).isDefined = true := by
  cases operand with
  | constant value => exact constantDefined value rfl
  | column position =>
      rw [value, List.getD_eq_getElem?_getD]
      cases found : row[position]? with
      | none => rfl
      | some value => exact List.all_eq_true.mp rowDefined value (List.mem_of_getElem? found)

/-- Of whatever rows, an aggregation has one row for each key, in the order in which the keys first
appear: the key, and behind it the aggregates over the rows that have it, or over all rows if there
is nothing to group by. Each row is in one group, so the numbers of their rows add up. The numbers
of rows and of values that are not null, and the least and the greatest of integers and nulls, are
what the aggregates for them give. -/
theorem RowSet.aggregate_by_key (keys : List Operand) (aggregates : List (Aggregate × Operand))
    (set : RowSet) :
    ∃ groups : List Group,
      (set.aggregate keys aggregates).rows = groups.map (fun group =>
        group.key ++ aggregates.map fun aggregate =>
          aggregate.1.fold (group.rows.map fun row => aggregate.2.value row)) ∧
      groups.map Group.key = keysAmong keys set.rows ∧
      (groups.map Group.key).Pairwise (fun first second => sameTuple first second = false) ∧
      (∀ group ∈ groups, group.Collects keys set.rows) ∧
      ((∀ row ∈ set.rows, row.all Value.isDefined = true) →
        (∀ value, .constant value ∈ keys → value.isDefined = true) →
        ∀ group ∈ groups, group.rows = rowsUnder keys set.rows group.key) ∧
      (keys = [] → groups = [⟨[], set.rows⟩]) ∧
      (groups.flatMap Group.rows).Perm set.rows ∧
      (groups.map fun group => group.rows.length).sum = set.rows.length ∧
      ∀ group ∈ groups, ∀ operand : Operand,
        let values := group.rows.map fun row => operand.value row
        Aggregate.rows.fold values = .integer (Int64.ofNat group.rows.length) ∧
        Aggregate.count.fold values =
          .integer (Int64.ofNat (values.countP fun value => !value.isNull)) ∧
        ((∀ value ∈ values, value = .null ∨ ∃ number, value = .integer number) →
          IsFirstInteger (· ≤ ·) values (Aggregate.least.fold values) ∧
          IsFirstInteger (fun first second => second ≤ first) values
            (Aggregate.greatest.fold values)) := by
  obtain ⟨listed, collects⟩ := groupsOf_collects keys set.rows
  have shared := groupsOf_perm keys set.rows
  refine ⟨groupsOf keys set.rows, ?_, listed, listed ▸ keysAmong_distinct keys set.rows, collects,
    fun rowsDefined constantsDefined group member => ?_, ?_, shared,
    List.length_flatMap.symm.trans shared.length_eq,
    fun group member operand => ⟨?_, Aggregate.fold_count, fun whole =>
      ⟨Aggregate.fold_least whole, Aggregate.fold_greatest whole⟩⟩⟩
  · rw [aggregate, aggregateRows]
    refine List.map_congr_left fun group _ => ?_
    simp only [groupRow, Aggregate.value_eq_fold]
  · refine (collects group member).defined ?_
    by_contra undefined
    obtain ⟨row, stored, rfl⟩ := (collects group member).undefined (Bool.eq_false_iff.mpr undefined)
    refine undefined (List.all_eq_true.mpr fun value present => ?_)
    obtain ⟨operand, grouped, rfl⟩ := List.mem_map.mp present
    exact operand.isDefined_value (rowsDefined row stored) fun value same =>
      constantsDefined value (same ▸ grouped)
  · rintro rfl
    obtain ⟨group, single, named⟩ := List.map_eq_singleton_iff.mp listed
    have all := (collects group (single ▸ List.mem_singleton.mpr rfl)).defined (by rw [named]; rfl)
    have every : rowsUnder [] set.rows [] = set.rows := List.filter_eq_self.mpr fun _ _ => rfl
    rw [named, every] at all
    rw [single, ← named, ← all]
  · rw [Aggregate.fold_rows, List.length_map]

/-- Nulls have a group of their own, and are left out of what is counted and compared. -/
theorem RowSet.aggregate_by_key_with_nulls :
    let set : RowSet := ⟨["a", "b"], [[.integer 1, .null], [.null, .integer 3],
      [.integer 1, .integer 5], [.null, .integer 2]]⟩
    let keys : List Operand := [.column 0]
    let aggregates : List (Aggregate × Operand) :=
      [(.rows, .column 1), (.count, .column 1), (.least, .column 1)]
    (∀ row ∈ set.rows, row.all Value.isDefined = true) ∧
    ∃ groups : List Group, groups.map Group.key = [[.integer 1], [.null]] ∧
      (∀ group ∈ groups, group.rows = rowsUnder keys set.rows group.key ∧
        let values := group.rows.map fun row => (Operand.column 1).value row
        IsFirstInteger (· ≤ ·) values (Aggregate.least.fold values)) ∧
      (set.aggregate keys aggregates).rows =
        [[.integer 1, .integer 2, .integer 1, .integer 5],
          [.null, .integer 2, .integer 2, .integer 2]] := by
  intro set keys aggregates
  have defined : ∀ row ∈ set.rows, row.all Value.isDefined = true := by decide
  have whole : ∀ row ∈ set.rows, (Operand.column 1).value row = .null ∨
      ∃ number, (Operand.column 1).value row = .integer number := by
    simp [set, Operand.value]
  obtain ⟨groups, -, listed, -, -, gathered, -, -, -, aggregated⟩ :=
    RowSet.aggregate_by_key keys aggregates set
  refine ⟨defined, groups, listed.trans (by decide), fun group member => ?_, by decide⟩
  have held := gathered defined (by simp [keys]) group member
  refine ⟨held, ((aggregated group member (.column 1)).2.2 fun value listed => ?_).1⟩
  obtain ⟨row, stored, rfl⟩ := List.mem_map.mp listed
  rw [held] at stored
  exact whole row (List.mem_filter.mp stored).1

end Coffer
