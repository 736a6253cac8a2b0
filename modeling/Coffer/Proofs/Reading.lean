import Coffer.Language.Reading.Statement
import Coffer.Proofs.Lexing
import Coffer.Proofs.Result

namespace Coffer.Language

/-! # What readers take off

Readers are run on the tokens of what was rendered, followed by any rest. Where a reader looks
ahead, the rest has to start with none of the tokens it would go on with.
-/

variable {α β : Type} {rest tokens : List Token} {fault : Option LexicalFault} {first : Nat}
variable {value : α} {cursor after : Cursor} {test : Token → Bool}

theorem Stops.mono {wide narrow : Token → Bool} (stops : Stops wide rest)
    (narrower : ∀ token, narrow token = true → wide token = true) : Stops narrow rest := by
  intro token head
  have none := stops token head
  by_contra some
  exact Bool.false_ne_true (none.symm.trans (narrower token (Bool.not_eq_false _ ▸ some)))

namespace Reader

theorem bind_ok {reader : Reader α} {next : α → Reader β}
    (ran : reader cursor = .ok (value, after)) : (reader >>= next) cursor = next value after := by
  change (reader cursor >>= fun found => next found.1 found.2) = _
  rw [ran]
  rfl

theorem next_cons (token : Token) :
    next ⟨token :: rest, fault, first⟩ = .ok (token, ⟨rest, fault, first⟩) := rfl

theorem glance_eq : glance cursor = .ok (cursor.tokens.head?, cursor) := rfl

theorem peek_eq : peek ⟨rest, none, first⟩ = .ok (rest.head?, ⟨rest, none, first⟩) := by
  cases rest <;> rfl

theorem takeIf_cons {token : Token} (passes : test token = true) :
    takeIf test ⟨token :: rest, fault, first⟩ = .ok (some token, ⟨rest, fault, first⟩) := by
  simp only [takeIf, passes, if_true]

theorem takeIf_stops (stops : Stops test rest) :
    takeIf test ⟨rest, fault, first⟩ = .ok (none, ⟨rest, fault, first⟩) := by
  cases rest with
  | nil => rfl
  | cons token others => simp [takeIf, stops token rfl]

theorem accept_cons (token : Token) :
    accept token ⟨token :: rest, fault, first⟩ = .ok (true, ⟨rest, fault, first⟩) := by
  have taken : takeIf (fun found => found == token) ⟨token :: rest, fault, first⟩ =
      .ok (some token, ⟨rest, fault, first⟩) := takeIf_cons (beq_self_eq_true token)
  rw [accept, bind_ok taken]
  rfl

theorem accept_stops {token : Token} (stops : Stops (· == token) rest) :
    accept token ⟨rest, fault, first⟩ = .ok (false, ⟨rest, fault, first⟩) := by
  rw [accept, bind_ok (takeIf_stops stops)]
  rfl

theorem expect_cons (token : Token) :
    expect token ⟨token :: rest, fault, first⟩ = .ok ((), ⟨rest, fault, first⟩) := by
  rw [expect, bind_ok (next_cons token), if_pos rfl]
  rfl

theorem name_cons (name : String) :
    Reader.name ⟨.identifier name :: rest, fault, first⟩ = .ok (name, ⟨rest, fault, first⟩) := rfl

theorem name?_cons (name : String) :
    name? ⟨.identifier name :: rest, fault, first⟩ = .ok (some name, ⟨rest, fault, first⟩) := rfl

theorem name?_stops (stops : Stops isIdentifier rest) :
    name? ⟨rest, fault, first⟩ = .ok (none, ⟨rest, fault, first⟩) := by
  rw [name?, bind_ok (takeIf_stops stops)]
  rfl

end Reader

/-! ## Tokens of marks -/

section Marks

variable {marks others : List Mark} {mark : Mark}

theorem tokensIn_nil : tokensIn [] = [] := rfl

theorem tokensIn_token {token : Token} :
    tokensIn (.token token :: marks) = token :: tokensIn marks := rfl

theorem tokensIn_bare {text : String} :
    tokensIn (.bare text :: marks) = .identifier text :: tokensIn marks := rfl

theorem tokensIn_space : tokensIn (.space :: marks) = tokensIn marks := rfl

theorem tokensIn_append : tokensIn (marks ++ others) = tokensIn marks ++ tokensIn others :=
  List.flatMap_append

theorem tokensIn_parenthesized :
    tokensIn (Mark.parenthesized marks) =
      .symbol .openParen :: (tokensIn marks ++ [.symbol .closeParen]) := by
  rw [Mark.parenthesized, Mark.symbol, tokensIn_token, tokensIn_append]
  rfl

theorem tokensIn_clause {keywords : List Keyword} :
    tokensIn (Mark.clause keywords) = keywords.map Token.keyword := by
  induction keywords with
  | nil => rfl
  | cons keyword more ih =>
      rw [List.map_cons, ← ih]
      rfl

/-- The tokens of items set off by commas. -/
def commaTokens : List (List Token) → List Token
  | [] => []
  | item :: more => item ++ more.flatMap fun next => .symbol .comma :: next

theorem commaTokens_cons {item second : List Token} {more : List (List Token)} :
    commaTokens (item :: second :: more) =
      item ++ ([.symbol .comma] ++ commaTokens (second :: more)) := rfl

theorem tokensIn_separated {items : List (List Mark)} :
    tokensIn (Mark.separated items) = commaTokens (items.map tokensIn) := by
  cases items with
  | nil => rfl
  | cons item more =>
      rw [Mark.separated, tokensIn_append, List.map_cons, commaTokens, List.flatMap_map]
      congr 1
      rw [tokensIn, List.flatMap_assoc]
      rfl

end Marks

/-! ## Placeholders -/

/-- Whether placeholders are numbered one after another from the given number on. -/
def Consecutive (first : Nat) (numbers : List Nat) : Prop :=
  numbers = List.range' first numbers.length

theorem consecutive_nil : Consecutive first [] := rfl

theorem consecutive_append {numbers others : List Nat} :
    Consecutive first (numbers ++ others) ↔
      Consecutive first numbers ∧ Consecutive (first + numbers.length) others := by
  rw [Consecutive, List.length_append, ← List.range'_append_1]
  refine ⟨fun same => ?_, fun ⟨front, back⟩ => ?_⟩
  · exact List.append_inj same (List.length_range'.symm)
  · rw [← front, ← back]

/-- Whether a reader reads tokens as a value that holds the given placeholders, before any
rest that may follow and as long as there are no more tokens than the bound. -/
def Reads (bound : Nat) (reader : Reader α) (tokens : List Token) (value : α)
    (numbers : List Nat) (follows : List Token → Prop) : Prop :=
  ∀ ⦃first rest⦄, follows rest → Consecutive first numbers → (tokens ++ rest).length ≤ bound →
    reader ⟨tokens ++ rest, none, first⟩ = .ok (value, ⟨rest, none, first + numbers.length⟩)

/-- Whether a rest does not start with the given token. -/
def Without (token : Token) (rest : List Token) : Prop :=
  Stops (· == token) rest

theorem without_nil {token : Token} : Without token [] := by
  rintro _ ⟨⟩

theorem without_cons {token other : Token} (different : token ≠ other) :
    Without other (token :: rest) := by
  intro found head
  cases head
  exact beq_eq_false_iff_ne.mpr different

/-- Any rest, or no more tokens. -/
def Anything (_ : List Token) : Prop :=
  True

namespace Reads

variable {bound : Nat} {reader : Reader α} {next : α → Reader β} {result : β}
variable {others : List Token} {numbers more : List Nat} {follows ends : List Token → Prop}

theorem bind (front : Reads bound reader tokens value numbers follows)
    (back : Reads bound (next value) others result more ends)
    (meets : ∀ rest, ends rest → follows (others ++ rest)) :
    Reads bound (reader >>= next) (tokens ++ others) result (numbers ++ more) ends := by
  intro first rest last numbered room
  obtain ⟨leading, trailing⟩ := consecutive_append.mp numbered
  rw [List.append_assoc] at room ⊢
  have shorter : (others ++ rest).length ≤ bound := by
    rw [List.length_append] at room
    omega
  rw [Reader.bind_ok (front (meets rest last) leading room), back last trailing shorter,
    List.length_append, Nat.add_assoc]

theorem seq (front : Reads bound reader tokens value numbers Anything)
    (back : Reads bound (next value) others result more ends) :
    Reads bound (reader >>= next) (tokens ++ others) result (numbers ++ more) ends :=
  front.bind back fun _ _ => trivial

theorem pure (value : α) : Reads bound (pure value) [] value [] follows := fun _ _ _ _ _ => rfl

theorem weaken (reads : Reads bound reader tokens value numbers follows)
    (stronger : ∀ rest, ends rest → follows rest) :
    Reads bound reader tokens value numbers ends :=
  fun _ rest last numbered room => reads (stronger rest last) numbered room

/-- A reader that ends with what it makes of what another one found. -/
theorem last (reads : Reads bound reader tokens value numbers follows)
    (made : next value = Pure.pure result) :
    Reads bound (reader >>= next) tokens result numbers follows := by
  intro first rest last numbered room
  rw [Reader.bind_ok (reads last numbered room), made]
  rfl

theorem map {change : α → β} (reads : Reads bound reader tokens value numbers follows) :
    Reads bound (reader >>= fun found => Pure.pure (change found)) tokens (change value) numbers
      follows :=
  reads.last rfl

end Reads

section Lists

variable {bound limit : Nat} {item : Reader α} {shown : α → List Token} {numbers : α → List Nat}
variable {follows : List Token → Prop} {values : List α}

theorem length_le_commaTokens :
    values.length ≤ (commaTokens ((value :: values).map shown)).length := by
  have each : values.length ≤ ((values.map shown).flatMap fun next => .symbol .comma :: next).length := by
    induction values with
    | nil => exact Nat.le_refl _
    | cons second others ih =>
        simp only [List.map_cons, List.flatMap_cons, List.length_append, List.length_cons]
        omega
  rw [List.map_cons, commaTokens, List.length_append]
  omega

theorem separatedWithin_reads
    (reads : ∀ other ∈ value :: values, Reads bound item (shown other) other (numbers other) follows)
    (comma : ∀ more, follows (.symbol .comma :: more)) (enough : values.length ≤ limit) :
    Reads bound (Reader.separatedWithin item limit) (commaTokens ((value :: values).map shown))
      (value :: values) ((value :: values).flatMap numbers)
      (fun rest => follows rest ∧ Without (.symbol .comma) rest) := by
  induction values generalizing value limit with
  | nil =>
      rintro first rest ⟨ends, last⟩ numbered room
      simp only [List.map_cons, List.map_nil, commaTokens, List.flatMap_cons, List.flatMap_nil,
        List.append_nil] at numbered room ⊢
      have read := reads value List.mem_cons_self ends numbered room
      cases limit with
      | zero =>
          rw [Reader.separatedWithin, Reader.bind_ok read]
          rfl
      | succ limit =>
          rw [Reader.separatedWithin, Reader.bind_ok read, Reader.acceptSymbol,
            Reader.bind_ok (Reader.accept_stops last)]
          rfl
  | cons second others ih =>
      rintro first rest ends numbered room
      obtain ⟨limit, rfl⟩ : ∃ fewer, limit = fewer + 1 := ⟨limit - 1, by simp at enough; omega⟩
      rw [List.flatMap_cons] at numbered ⊢
      obtain ⟨front, back⟩ := consecutive_append.mp numbered
      have form : commaTokens ((value :: second :: others).map shown) ++ rest =
          shown value ++ (.symbol .comma :: (commaTokens ((second :: others).map shown) ++ rest)) := by
        rw [List.map_cons, List.map_cons, commaTokens_cons, List.append_assoc, List.append_assoc]
        rfl
      rw [form] at room ⊢
      have read := reads value List.mem_cons_self (comma _) front room
      have shorter : (commaTokens ((second :: others).map shown) ++ rest).length ≤ bound := by
        simp only [List.length_append, List.length_cons] at room ⊢
        omega
      have further := ih (fun other member => reads other (List.mem_cons_of_mem value member))
        (Nat.le_of_succ_le_succ enough) ends back shorter
      rw [Reader.separatedWithin, Reader.bind_ok read, Reader.acceptSymbol,
        Reader.bind_ok (Reader.accept_cons _), if_pos rfl, Reader.bind_ok further,
        List.length_append, Nat.add_assoc]
      rfl

/-- Items set off by commas are read one after another. -/
theorem separated_reads (nonempty : values ≠ [])
    (reads : ∀ other ∈ values, Reads bound item (shown other) other (numbers other) follows)
    (comma : ∀ more, follows (.symbol .comma :: more)) :
    Reads bound (Reader.separated item) (commaTokens (values.map shown)) values
      (values.flatMap numbers) (fun rest => follows rest ∧ Without (.symbol .comma) rest) := by
  obtain ⟨value, others, rfl⟩ := List.exists_cons_of_ne_nil nonempty
  intro first rest ends numbered room
  have enough : others.length ≤ (commaTokens ((value :: others).map shown) ++ rest).length := by
    rw [List.length_append]
    exact Nat.le_add_right_of_le length_le_commaTokens
  exact separatedWithin_reads reads comma enough ends numbered room

end Lists

section Tokens

variable {bound : Nat} {token : Token}

theorem accepts (token : Token) :
    Reads bound (Reader.accept token) [token] true [] Anything :=
  fun _ _ _ _ _ => Reader.accept_cons token

theorem passes (token : Token) : Reads bound (Reader.accept token) [] false [] (Without token) :=
  fun _ _ without _ _ => Reader.accept_stops without

theorem expects (token : Token) : Reads bound (Reader.expect token) [token] () [] Anything :=
  fun _ _ _ _ _ => Reader.expect_cons token

theorem takes (token : Token) : Reads bound Reader.next [token] token [] Anything :=
  fun _ _ _ _ _ => rfl

theorem takesName (name : String) :
    Reads bound Reader.name [.identifier name] name [] Anything :=
  fun _ _ _ _ _ => rfl

theorem takesNone (test : Token → Bool) :
    Reads bound (Reader.takeIf test) [] none [] (Stops test) :=
  fun _ _ stops _ _ => Reader.takeIf_stops stops

theorem takesIf {test : Token → Bool} (passes : test token = true) :
    Reads bound (Reader.takeIf test) [token] (some token) [] Anything :=
  fun _ _ _ _ _ => Reader.takeIf_cons passes

/-- A reader that looks at the first token before it reads on. -/
theorem Reads.peeked {next : Option Token → Reader α} {numbers : List Nat}
    {ends : List Token → Prop}
    (back : Reads bound (next (some token)) tokens value numbers ends)
    (leading : ∀ rest, ends rest → (tokens ++ rest).head? = some token) :
    Reads bound (Reader.peek >>= next) tokens value numbers ends := by
  intro first rest last numbered room
  rw [Reader.bind_ok Reader.peek_eq, leading rest last, back last numbered room]

end Tokens

end Coffer.Language
