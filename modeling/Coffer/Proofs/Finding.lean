import Coffer.Proofs.Numeral
import Coffer.Proofs.Reading

namespace Coffer.Language

/-! # What readers find

Whatever the tokens are, what a reader finds has a form that the reader sees to, and the
placeholders in it are numbered in order, by the numbers that the reader gave out.
-/

variable {α β : Type} {reader : Reader α} {following : α → Reader β} {cursor after : Cursor}
variable {value found : α} {result : β} {error : Error}

namespace Reader

theorem bind_eq_ok_iff :
    (reader >>= following) cursor = .ok (result, after) ↔
      ∃ value middle, reader cursor = .ok (value, middle) ∧
        following value middle = .ok (result, after) := by
  change (reader cursor >>= fun found => following found.1 found.2) = _ ↔ _
  rw [Coffer.bind_eq_ok_iff]
  exact Prod.exists

/-- What comes after a reader may be another one that finds as much. -/
theorem bind_ok_mono {other : α → Reader β}
    (ran : (reader >>= following) cursor = .ok (result, after))
    (same : ∀ value middle, following value middle = .ok (result, after) →
      other value middle = .ok (result, after)) :
    (reader >>= other) cursor = .ok (result, after) := by
  obtain ⟨value, middle, first, second⟩ := bind_eq_ok_iff.mp ran
  rw [bind_ok first]
  exact same value middle second

theorem pure_eq_ok_iff :
    (pure value : Reader α) cursor = .ok (found, after) ↔ value = found ∧ cursor = after := by
  change Except.ok (value, cursor) = _ ↔ _
  rw [Except.ok.injEq, Prod.mk.injEq]

theorem lift_eq_ok_iff {checked : Except Error α} :
    (liftM checked : Reader α) cursor = .ok (value, after) ↔
      checked = .ok value ∧ cursor = after := by
  cases checked with
  | error reason => exact ⟨nofun, nofun⟩
  | ok found =>
      change Except.ok (found, cursor) = _ ↔ _
      rw [Except.ok.injEq, Except.ok.injEq, Prod.mk.injEq]

theorem throw_ne_ok : (throw error : Reader α) cursor ≠ .ok (value, after) := nofun

theorem peek_eq_ok {seen : Option Token} (peeked : peek cursor = .ok (seen, after)) :
    cursor.tokens.head? = seen ∧ cursor = after := by
  rw [peek] at peeked
  split at peeked
  · cases peeked
  · cases peeked
    exact ⟨rfl, rfl⟩

end Reader

/-- Whether a reader, given only tokens that are allowed, leaves only such tokens, and what it
finds and the numbers that it gives out for the placeholders in it are of a kind. -/
def Finds (allowed : Token → Prop) (reader : Reader α) (kind : α → List Nat → Prop) : Prop :=
  ∀ ⦃cursor value after⦄, (∀ token ∈ cursor.tokens, allowed token) →
    reader cursor = .ok (value, after) →
    (∀ token ∈ after.tokens, allowed token) ∧
      ∃ numbers, Consecutive cursor.parameters numbers ∧
        after.parameters = cursor.parameters + numbers.length ∧ kind value numbers

/-- The values with some property, the numbers of whose placeholders are known. -/
def Bearing (numbers : α → List Nat) (good : α → Prop) (value : α) (given : List Nat) : Prop :=
  given = numbers value ∧ good value

/-- The values with some property in which there is no placeholder. -/
def Plain (good : α → Prop) : α → List Nat → Prop :=
  Bearing (fun _ => []) good

namespace Finds

variable {allowed : Token → Prop} {kind narrow : α → List Nat → Prop}
variable {final : β → List Nat → Prop} {good : α → Prop} {condition : Prop} {other : Reader α}

theorem bind (front : Finds allowed reader kind)
    (back : ∀ value numbers, kind value numbers →
      Finds allowed (following value) fun result more => final result (numbers ++ more)) :
    Finds allowed (reader >>= following) final := by
  intro cursor result after given ran
  obtain ⟨value, middle, first, second⟩ := Reader.bind_eq_ok_iff.mp ran
  obtain ⟨kept, numbers, leading, count, holds⟩ := front given first
  obtain ⟨left, more, trailing, total, finally_⟩ := back value numbers holds kept second
  refine ⟨left, numbers ++ more, consecutive_append.mpr ⟨leading, count ▸ trailing⟩, ?_, finally_⟩
  rw [total, count, List.length_append, Nat.add_assoc]

/-- A reader that finds no placeholders, before one that may. -/
theorem seq (front : Finds allowed reader (Plain good))
    (back : ∀ value, good value → Finds allowed (following value) final) :
    Finds allowed (reader >>= following) final := by
  refine front.bind ?_
  rintro value _ ⟨rfl, holds⟩
  exact back value holds

theorem weaken (finds : Finds allowed reader narrow)
    (wider : ∀ value numbers, narrow value numbers → kind value numbers) :
    Finds allowed reader kind := by
  intro cursor value after given ran
  obtain ⟨kept, numbers, consecutive, count, holds⟩ := finds given ran
  exact ⟨kept, numbers, consecutive, count, wider value numbers holds⟩

theorem pure (holds : kind value []) : Finds allowed (pure value) kind := by
  intro cursor found after given ran
  obtain ⟨rfl, rfl⟩ := Reader.pure_eq_ok_iff.mp ran
  exact ⟨given, [], consecutive_nil, rfl, holds⟩

theorem throw : Finds allowed (throw error : Reader α) kind :=
  fun _ _ _ _ ran => absurd ran Reader.throw_ne_ok

theorem lift {checked : Except Error α} (holds : ∀ value, checked = .ok value → kind value []) :
    Finds allowed (liftM checked : Reader α) kind := by
  intro cursor value after given ran
  obtain ⟨passed, rfl⟩ := Reader.lift_eq_ok_iff.mp ran
  exact ⟨given, [], consecutive_nil, rfl, holds value passed⟩

theorem checked {checked : Except Error α} (holds : ∀ value, checked = .ok value → good value) :
    Finds allowed (liftM checked : Reader α) (Plain good) :=
  lift fun value passed => ⟨rfl, holds value passed⟩

/-- A value that is handed on. -/
theorem handed (finds : Finds allowed (following value) final) :
    Finds allowed (Pure.pure value >>= following) final := by
  rwa [pure_bind]

theorem ite [Decidable condition] (holds : condition → Finds allowed reader kind)
    (fails : ¬ condition → Finds allowed other kind) :
    Finds allowed (if condition then reader else other) kind := by
  split
  · exact holds ‹_›
  · exact fails ‹_›

/-- What is found is kept, and further items come after it. -/
theorem map {change : α → β} (finds : Finds allowed reader kind)
    (holds : ∀ value numbers, kind value numbers → final (change value) numbers) :
    Finds allowed (reader >>= fun value => Pure.pure (change value)) final := by
  refine finds.bind fun value numbers found => .pure ?_
  rw [List.append_nil]
  exact holds value numbers found

/-! ## Tokens -/

theorem next : Finds allowed Reader.next (Plain allowed) := by
  intro cursor token after given ran
  rw [Reader.next] at ran
  split at ran
  · cases ran
  · rename_i first rest tokens
    cases ran
    rw [tokens] at given
    obtain ⟨head, tail⟩ := List.forall_mem_cons.mp given
    exact ⟨tail, [], consecutive_nil, rfl, rfl, head⟩

theorem glance :
    Finds allowed Reader.glance (Plain fun seen => ∀ token ∈ seen, allowed token) := by
  intro cursor seen after given ran
  cases ran
  exact ⟨given, [], consecutive_nil, rfl, rfl,
    fun token head => given token (List.mem_of_mem_head? head)⟩

theorem peek : Finds allowed Reader.peek (Plain fun seen => ∀ token ∈ seen, allowed token) := by
  intro cursor seen after given ran
  obtain ⟨rfl, rfl⟩ := Reader.peek_eq_ok ran
  exact ⟨given, [], consecutive_nil, rfl, rfl,
    fun token head => given token (List.mem_of_mem_head? head)⟩

theorem takeIf (test : Token → Bool) :
    Finds allowed (Reader.takeIf test)
      (Plain fun taken => ∀ token ∈ taken, allowed token ∧ test token = true) := by
  intro cursor taken after given ran
  rw [Reader.takeIf] at ran
  split at ran
  · rename_i first rest tokens
    split at ran
    · rename_i passes
      cases ran
      rw [tokens] at given
      obtain ⟨head, tail⟩ := List.forall_mem_cons.mp given
      refine ⟨tail, [], consecutive_nil, rfl, rfl, ?_⟩
      rintro token ⟨⟩
      exact ⟨head, passes⟩
    · cases ran
      exact ⟨given, [], consecutive_nil, rfl, rfl, by simp⟩
  · cases ran
    exact ⟨given, [], consecutive_nil, rfl, rfl, by simp⟩

theorem accept (token : Token) : Finds allowed (Reader.accept token) (Plain fun _ => True) :=
  (takeIf _).map fun _ _ holds => ⟨holds.1, trivial⟩

theorem expect (token : Token) : Finds allowed (Reader.expect token) (Plain fun _ => True) :=
  next.seq fun _ _ => .ite (fun _ => .pure ⟨rfl, trivial⟩) fun _ => .throw

/-- A name comes from an identifier. -/
theorem name :
    Finds allowed Reader.name (Plain fun name => allowed (.identifier name)) := by
  refine next.seq fun token permitted => ?_
  cases token with
  | identifier name => exact .pure ⟨rfl, permitted⟩
  | _ => exact .throw

theorem name? :
    Finds allowed Reader.name?
      (Plain fun found => ∀ name ∈ found, allowed (.identifier name)) := by
  refine (takeIf _).seq fun taken permitted => ?_
  split
  · rename_i name
    exact .pure ⟨rfl, fun found same => Option.mem_some_iff.mp same ▸ (permitted _ rfl).1⟩
  · exact .pure ⟨rfl, nofun⟩

theorem count : Finds allowed Reader.count (Plain fun count => count < Nat.pow 2 64) := by
  refine next.seq fun token _ => ?_
  split
  · split
    · rename_i text count read
      exact .pure ⟨rfl, Numeral.natural64_lt read⟩
    · exact .throw
  · exact .throw

theorem ended : Finds allowed Reader.ended (Plain fun _ => True) := by
  refine peek.seq fun seen _ => ?_
  split
  · exact .throw
  · exact .pure ⟨rfl, trivial⟩

/-! ## Lists -/

section Lists

variable {numbers : α → List Nat}

theorem separatedWithin (finds : Finds allowed reader (Bearing numbers good)) (limit : Nat) :
    Finds allowed (Reader.separatedWithin reader limit)
      (Bearing (fun values => values.flatMap numbers)
        fun values => values ≠ [] ∧ ∀ value ∈ values, good value) := by
  have alone (value : α) (holds : good value) :
      Bearing (fun values => values.flatMap numbers)
        (fun values => values ≠ [] ∧ ∀ value ∈ values, good value) [value]
        (numbers value ++ []) :=
    ⟨by simp, by simp, by simpa using holds⟩
  induction limit with
  | zero =>
      refine finds.bind ?_
      rintro value _ ⟨rfl, holds⟩
      exact .pure (alone value holds)
  | succ limit ih =>
      refine finds.bind ?_
      rintro value _ ⟨rfl, holds⟩
      refine (accept (.symbol .comma)).seq fun _ _ => .ite (fun _ => ?_) fun _ => ?_
      · refine ih.map ?_
        rintro values _ ⟨rfl, -, others⟩
        exact ⟨rfl, by simp, List.forall_mem_cons.mpr ⟨holds, others⟩⟩
      · exact .pure (alone value holds)

theorem separated (finds : Finds allowed reader (Bearing numbers good)) :
    Finds allowed (Reader.separated reader)
      (Bearing (fun values => values.flatMap numbers)
        fun values => values ≠ [] ∧ ∀ value ∈ values, good value) :=
  fun cursor _ _ given ran => finds.separatedWithin cursor.tokens.length given ran

/-- A list of items without placeholders has none. -/
theorem separatedPlain (finds : Finds allowed reader (Plain good)) :
    Finds allowed (Reader.separated reader)
      (Plain fun values => values ≠ [] ∧ ∀ value ∈ values, good value) := by
  refine (separated finds).weaken ?_
  rintro values _ ⟨rfl, holds⟩
  exact ⟨List.flatMap_eq_nil_iff.mpr fun _ _ => rfl, holds⟩

end Lists

theorem names :
    Finds allowed Reader.names (Plain fun names => ∀ name ∈ names, allowed (.identifier name)) := by
  refine (expect _).seq fun _ _ => (accept _).seq fun _ _ => .ite (fun _ => ?_) fun _ => ?_
  · exact .pure ⟨rfl, nofun⟩
  · exact name.separatedPlain.seq fun found holds => (expect _).seq fun _ _ => .pure ⟨rfl, holds.2⟩

end Finds

end Coffer.Language
