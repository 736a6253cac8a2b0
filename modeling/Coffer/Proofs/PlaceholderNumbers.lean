import Coffer.Proofs.Legible
import Coffer.Proofs.Replacement

namespace Coffer.Builder

/-! # Numbered placeholders

The placeholders of what was built have no numbers of their own. Numbered in the order in which
they stand, they are told apart, and the values that go with them can be put in their places.
-/

open Language

variable {α β γ : Type} {first : Nat} {values others : List Value} {value : Value}
variable {replacement : Nat → Expression}

/-- What has placeholders: it can be given other expressions for them, and tells their numbers in
the order in which they stand. -/
class Fillable (α : Type) where
  replaced : (Nat → Expression) → α → α
  placeholders : α → List Nat

instance : Fillable Expression where
  replaced := Expression.replaced
  placeholders := Expression.placeholders

instance [Fillable α] : Fillable (Option α) where
  replaced replacement := Option.map (Fillable.replaced replacement)
  placeholders found := found.toList.flatMap Fillable.placeholders

instance [Fillable α] : Fillable (List α) where
  replaced replacement := List.map (Fillable.replaced replacement)
  placeholders found := found.flatMap Fillable.placeholders

instance : Fillable Join where
  replaced := Join.replaced
  placeholders join := join.condition.toList.flatMap Expression.placeholders

instance [Fillable α] [Fillable β] : Fillable (α × β) where
  replaced replacement := Prod.map (Fillable.replaced replacement) (Fillable.replaced replacement)
  placeholders found := Fillable.placeholders found.1 ++ Fillable.placeholders found.2

instance : Fillable String where
  replaced _ := id
  placeholders _ := []

instance : Fillable Select where
  replaced := Select.replaced
  placeholders select := select.expressions.flatMap Expression.placeholders

instance : Fillable Statement where
  replaced := Statement.replaced
  placeholders := Statement.placeholders

/-- Whether the expressions for the placeholders from a number on are values as literals. -/
def Gives (replacement : Nat → Expression) : (first : Nat) → List Value → Prop
  | _, [] => True
  | first, value :: rest =>
    replacement first = .literal (literal value) ∧ Gives replacement (first + 1) rest

theorem gives_append :
    Gives replacement first (values ++ others) ↔
      Gives replacement first values ∧ Gives replacement (first + values.length) others := by
  induction values generalizing first with
  | nil => simp [Gives]
  | cons value rest ih =>
      rw [List.cons_append, Gives, Gives, ih, List.length_cons, Nat.add_right_comm,
        Nat.add_assoc first, and_assoc]

theorem gives_fillerOf (before : List Value) :
    Gives (fillerOf (literalsOf (before ++ values))) before.length values := by
  induction values generalizing before with
  | nil => trivial
  | cons value rest ih =>
      have later := ih (before ++ [value])
      rw [List.append_assoc, List.length_append] at later
      refine ⟨?_, later⟩
      rw [fillerOf, literalsOf, List.getElem?_map, List.getElem?_append_right (Nat.le_refl _),
        Nat.sub_self]
      rfl

/-- What was built, what is meant by it with its values, and the same with its placeholders
numbered from the first one on. -/
structure Numbers [Fillable α] (first : Nat) (values : List Value) (built meant numbered : α) :
    Prop where
  forgotten : Fillable.replaced (fun _ => placeholder) numbered = built
  filled : ∀ replacement, Gives replacement first values →
    Fillable.replaced replacement numbered = meant
  placeholders : Fillable.placeholders numbered = List.range' first values.length

namespace Numbers

section

variable [Fillable α] [Fillable β] [Fillable γ] {built meant numbered : α}
variable {builtNext meantNext numberedNext : β}

/-- What has no placeholders. -/
theorem plain (still : ∀ replacement, Fillable.replaced replacement numbered = numbered)
    (none : Fillable.placeholders numbered = []) : Numbers first [] numbered numbered numbered :=
  ⟨still _, fun replacement _ => still replacement, none⟩

/-- What is made of one part. -/
theorem map (build : α → β) (numbers : Numbers first values built meant numbered)
    (replaced : ∀ replacement part,
      Fillable.replaced replacement (build part) = build (Fillable.replaced replacement part))
    (same : ∀ part, Fillable.placeholders (build part) = Fillable.placeholders part) :
    Numbers first values (build built) (build meant) (build numbered) := by
  refine ⟨?_, fun replacement given => ?_, ?_⟩
  · rw [replaced, numbers.forgotten]
  · rw [replaced, numbers.filled replacement given]
  · rw [same, numbers.placeholders]

/-- What is made of two parts, one before the other. -/
theorem pair (build : α → β → γ) (numbers : Numbers first values built meant numbered)
    (next : Numbers (first + values.length) others builtNext meantNext numberedNext)
    (replaced : ∀ replacement part other, Fillable.replaced replacement (build part other) =
      build (Fillable.replaced replacement part) (Fillable.replaced replacement other))
    (both : ∀ part other, Fillable.placeholders (build part other) =
      Fillable.placeholders part ++ Fillable.placeholders other) :
    Numbers first (values ++ others) (build built builtNext) (build meant meantNext)
      (build numbered numberedNext) := by
  refine ⟨?_, fun replacement given => ?_, ?_⟩
  · rw [replaced, numbers.forgotten, next.forgotten]
  · obtain ⟨here, there⟩ := gives_append.mp given
    rw [replaced, numbers.filled replacement here, next.filled replacement there]
  · rw [both, numbers.placeholders, next.placeholders, List.length_append, List.range'_append_1]

theorem both (numbers : Numbers first values built meant numbered)
    (next : Numbers (first + values.length) others builtNext meantNext numberedNext) :
    Numbers first (values ++ others) (built, builtNext) (meant, meantNext)
      (numbered, numberedNext) :=
  numbers.pair Prod.mk next (fun _ _ _ => rfl) fun _ _ => rfl

theorem nil : Numbers first [] ([] : List α) [] [] :=
  plain (fun _ => rfl) rfl

theorem cons {builtRest meantRest numberedRest : List α}
    (numbers : Numbers first values built meant numbered)
    (rest : Numbers (first + values.length) others builtRest meantRest numberedRest) :
    Numbers first (values ++ others) (built :: builtRest) (meant :: meantRest)
      (numbered :: numberedRest) :=
  numbers.pair List.cons rest (fun _ _ _ => rfl) fun _ _ => rfl

end

/-- A placeholder for a value. -/
theorem placeholder :
    Numbers first [value] Builder.placeholder (.literal (literal value)) (.parameter first) :=
  ⟨rfl, fun _ given => given.1, rfl⟩

/-- Placeholders for the values of a list. -/
theorem listed :
    Numbers first values (values.map fun _ => Builder.placeholder)
      (values.map fun value => .literal (literal value))
      ((List.range' first values.length).map Expression.parameter) := by
  induction values generalizing first with
  | nil => exact .nil
  | cons value rest ih => exact placeholder.cons ih

end Numbers

end Coffer.Builder
