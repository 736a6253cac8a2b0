import Coffer.Proofs.ExpressionReading
import Coffer.Proofs.FilledText
import Coffer.Proofs.Finding

namespace Coffer.Language

/-! # Reading filled tokens

Where a reader finds something, another one finds the same with literals in it, once the literals
stand in the place of placeholders. Literals take more tokens than placeholders, so the two readers
need not be bounded alike.
-/

variable {α β γ δ : Type} {values : List Literal} {cursor after middle : Cursor} {tokens : List Token}
variable {room least more : Nat} {token : Token} {rest : List Token} {fault : Option LexicalFault}

/-- The literals that a text may hold for its placeholders. -/
def Writable (values : List Literal) : Prop :=
  ∀ value ∈ values, ∀ x, value = .real x → x.isFinite = true

/-- The tokens that stand for the placeholders from a number on. -/
def fillersFrom (values : List Literal) (first : Nat) : List (List Token) :=
  (values.drop first).map fun value => tokensIn value.marks

/-- The cursor with literals for the placeholders that are still to be read. -/
def Cursor.filled (values : List Literal) (cursor : Cursor) : Cursor :=
  { cursor with
    tokens := fillTokens (fillersFrom values cursor.parameters) cursor.tokens, parameters := 0 }

/-- Whether a token may be the first of a literal or stand for a placeholder. -/
def startsFiller : Token → Bool
  | .number _ => true
  | .string _ => true
  | .keyword word => word == .null || word == .true || word == .false
  | .symbol mark => mark == .minus || mark == .question
  | .identifier _ => false

theorem startsFiller_literal {value : Literal} (finite : ∀ x, value = .real x → x.isFinite = true) :
    ∃ token others, tokensIn value.marks = token :: others ∧ startsFiller token = true := by
  have signed {negative : Bool} {text : String} : ∃ token others,
      tokensIn (signedNumber negative text) = token :: others ∧ startsFiller token = true := by
    cases negative <;> exact ⟨_, _, rfl, rfl⟩
  cases value with
  | integer number => exact signed
  | real number =>
      obtain ⟨digits, fraction, -, -, form⟩ := realMarks_finite (finite number rfl)
      rw [Literal.marks, form]
      exact signed
  | null => exact ⟨_, _, rfl, rfl⟩
  | string content => exact ⟨_, _, rfl, rfl⟩
  | boolean truth => cases truth <;> exact ⟨_, _, rfl, rfl⟩

theorem filled_nil {first : Nat} :
    Cursor.filled values ⟨[], fault, first⟩ = ⟨[], fault, 0⟩ := by
  rw [Cursor.filled, fillTokens_nil]

/-- A token that is no placeholder stays. -/
theorem filled_cons {first : Nat} (apart : token ≠ .symbol .question) :
    Cursor.filled values ⟨token :: rest, fault, first⟩ =
      ⟨token :: (Cursor.filled values ⟨rest, fault, first⟩).tokens, fault, 0⟩ := by
  rw [Cursor.filled, Cursor.filled, fillTokens_cons (.inl apart)]

/-- A placeholder becomes the literal of its number. -/
theorem filled_question {first : Nat} {value : Literal} (found : values[first]? = some value) :
    Cursor.filled values ⟨.symbol .question :: rest, fault, first⟩ =
      ⟨tokensIn value.marks ++ (Cursor.filled values ⟨rest, fault, first + 1⟩).tokens, fault, 0⟩ := by
  obtain ⟨within, rfl⟩ := List.getElem?_eq_some_iff.mp found
  rw [Cursor.filled, Cursor.filled, fillersFrom, List.drop_eq_getElem_cons within, List.map_cons,
    fillTokens, fillersFrom]

/-- Where a placeholder stands, filled tokens start as a literal does. -/
theorem filled_question_head (writable : Writable values) {first : Nat} :
    ∃ token others, Cursor.filled values ⟨.symbol .question :: rest, fault, first⟩ =
      ⟨token :: others, fault, 0⟩ ∧ startsFiller token = true := by
  cases found : values[first]? with
  | none =>
      have absent : fillersFrom values first = [] := by
        rw [fillersFrom, List.drop_eq_nil_of_le (List.getElem?_eq_none_iff.mp found), List.map_nil]
      refine ⟨.symbol .question, fillTokens [] rest, ?_, rfl⟩
      rw [Cursor.filled, absent, fillTokens_cons (.inr rfl)]
  | some value =>
      obtain ⟨token, others, form, starts⟩ :=
        startsFiller_literal (writable value (List.mem_of_getElem? found))
      refine ⟨token, others ++ (Cursor.filled values ⟨rest, fault, first + 1⟩).tokens, ?_, starts⟩
      rw [filled_question found, form]
      rfl

theorem length_le_fillTokens {fillers : List (List Token)} (solid : ∀ filler ∈ fillers, filler ≠ []) :
    tokens.length ≤ (fillTokens fillers tokens).length := by
  fun_induction fillTokens fillers tokens with
  | case1 filler others rest ih =>
      obtain ⟨first, later⟩ := List.forall_mem_cons.mp solid
      have shorter := ih later
      have taken := List.length_pos_of_ne_nil first
      rw [List.length_cons, List.length_append]
      omega
  | case2 fillers token rest apart ih => exact Nat.succ_le_succ (ih solid)
  | case3 => exact Nat.zero_le _

theorem length_le_filled (writable : Writable values) {first : Nat} :
    tokens.length ≤ (Cursor.filled values ⟨tokens, fault, first⟩).tokens.length := by
  refine length_le_fillTokens fun filler member => ?_
  obtain ⟨value, among, rfl⟩ := List.mem_map.mp member
  obtain ⟨token, others, form, -⟩ := startsFiller_literal (writable value (List.mem_of_mem_drop among))
  rw [form]
  exact List.cons_ne_nil token others

/-- What a reader does to a cursor, besides that it finds something: it takes off at least some
tokens, and no placeholder is given a number again. -/
structure Steps (least : Nat) (cursor after : Cursor) : Prop where
  fault : after.fault = cursor.fault
  parameters : cursor.parameters ≤ after.parameters
  tokens : after.tokens.length + least ≤ cursor.tokens.length

/-- Whether a reader takes off at least some tokens, and another one finds what it finds with
literals in it, once there are literals for all placeholders that it reads. -/
def MirrorsAt (values : List Literal) (least : Nat) (cursor : Cursor) (reader : Reader α)
    (image : α → β) (filled : Reader β) : Prop :=
  ∀ ⦃value after⦄, reader cursor = .ok (value, after) →
    Steps least cursor after ∧
      (after.parameters ≤ values.length →
        filled (cursor.filled values) = .ok (image value, after.filled values))

/-- Whether this is so for all texts of at most some tokens. -/
def Mirrors (values : List Literal) (room least : Nat) (reader : Reader α) (image : α → β)
    (filled : Reader β) : Prop :=
  ∀ ⦃cursor⦄, cursor.tokens.length ≤ room →
    MirrorsAt values least cursor reader image filled

/-- Whether a reader tells the first token and takes none off. A fault may keep it from that only
where there is no token. -/
def Looks (looking : Reader (Option Token)) : Prop :=
  ∀ ⦃cursor seen after⦄, looking cursor = .ok (seen, after) →
    cursor.tokens.head? = seen ∧ cursor = after ∧
      ∀ other : Cursor, other.fault = cursor.fault → (other.tokens = [] → cursor.tokens = []) →
        looking other = .ok (other.tokens.head?, other)

theorem looks_glance : Looks Reader.glance := by
  rintro cursor seen after ⟨⟩
  exact ⟨rfl, rfl, fun _ _ _ => rfl⟩

theorem looks_peek : Looks Reader.peek := by
  rintro ⟨tokens, fault, first⟩ seen after peeked
  obtain ⟨rfl, rfl⟩ := Reader.peek_eq_ok peeked
  refine ⟨rfl, rfl, ?_⟩
  rintro ⟨others, other, later⟩ same none
  obtain rfl : other = fault := same
  cases others with
  | cons token rest => rfl
  | nil =>
      obtain rfl := none rfl
      cases other with
      | none => rfl
      | some fault => cases peeked

section Readers

variable {reader : Reader α} {image : α → β} {filled : Reader β} {following : α → Reader γ}
variable {final : γ → δ} {filledFollowing : β → Reader δ} {error : Error} {value : α} {found : β}

namespace MirrorsAt

theorem mono {fewer : Nat} (mirrors : MirrorsAt values least cursor reader image filled)
    (less : fewer ≤ least) : MirrorsAt values fewer cursor reader image filled := by
  intro value after ran
  obtain ⟨⟨fault, parameters, tokens⟩, same⟩ := mirrors ran
  exact ⟨⟨fault, parameters, by omega⟩, same⟩

/-- A reader of the token that stands first. -/
theorem head {following : Token → Reader γ} {filledFollowing : Token → Reader δ} {first : Nat}
    (apart : token ≠ .symbol .question) (enough : (token :: rest).length ≤ room)
    (back : 1 ≤ room → Mirrors values (room - 1) more (following token) final
      (filledFollowing token)) :
    MirrorsAt values (1 + more) ⟨token :: rest, fault, first⟩ (Reader.next >>= following) final
      (Reader.next >>= filledFollowing) := by
  intro result after ran
  rw [Reader.bind_ok (Reader.next_cons token)] at ran
  have some : 1 ≤ room := Nat.le_trans (Nat.succ_pos _) enough
  have fewer : rest.length ≤ room - 1 := Nat.le_sub_one_of_lt enough
  obtain ⟨steps, same⟩ := back some fewer ran
  refine ⟨⟨steps.fault, steps.parameters, ?_⟩, fun given => ?_⟩
  · have := steps.tokens
    simp only [List.length_cons] at this ⊢
    omega
  · rw [filled_cons apart, Reader.bind_ok (Reader.next_cons token)]
    exact same given

/-- A look at the token that stands first. -/
theorem glance {following : Option Token → Reader γ} {filledFollowing : Option Token → Reader δ}
    {first : Nat} (apart : token ≠ .symbol .question)
    (back : MirrorsAt values least ⟨token :: rest, fault, first⟩ (following (some token)) final
      (filledFollowing (some token))) :
    MirrorsAt values least ⟨token :: rest, fault, first⟩ (Reader.glance >>= following) final
      (Reader.glance >>= filledFollowing) := by
  intro result after ran
  rw [Reader.bind_ok Reader.glance_eq] at ran
  obtain ⟨steps, same⟩ := back ran
  refine ⟨steps, fun given => ?_⟩
  have seen := same given
  rw [filled_cons apart] at seen ⊢
  rw [Reader.bind_ok Reader.glance_eq]
  exact seen

end MirrorsAt

namespace Mirrors

theorem mono (mirrors : Mirrors values room least reader image filled) {smaller fewer : Nat}
    (within : smaller ≤ room) (less : fewer ≤ least) :
    Mirrors values smaller fewer reader image filled := by
  intro cursor enough
  exact (mirrors (Nat.le_trans enough within)).mono less

theorem bind (front : Mirrors values room least reader image filled)
    (back : ∀ value, least ≤ room →
      Mirrors values (room - least) more (following value) final (filledFollowing (image value))) :
    Mirrors values room (least + more) (reader >>= following) final (filled >>= filledFollowing) := by
  intro cursor enough result after ran
  obtain ⟨value, middle, first, second⟩ := Reader.bind_eq_ok_iff.mp ran
  obtain ⟨taken, leading⟩ := front enough first
  have fits := taken.tokens
  obtain ⟨left, trailing⟩ := back value (by omega) (by omega) second
  refine ⟨⟨left.fault.trans taken.fault, Nat.le_trans taken.parameters left.parameters, ?_⟩, fun given => ?_⟩
  · have := left.tokens
    omega
  · rw [Reader.bind_ok (leading (Nat.le_trans left.parameters given))]
    exact trailing given

theorem pure (same : image value = found) :
    Mirrors values room 0 (Pure.pure value) image (Pure.pure found) := by
  intro cursor enough result after ran
  obtain ⟨rfl, rfl⟩ := Reader.pure_eq_ok_iff.mp ran
  exact ⟨⟨rfl, Nat.le_refl _, Nat.le_refl _⟩, fun _ => by rw [← same]; rfl⟩

/-- What is found is handed on, perhaps changed. -/
theorem map {change : α → γ} {otherChange : β → δ}
    (front : Mirrors values room least reader image filled)
    (same : ∀ value, final (change value) = otherChange (image value)) :
    Mirrors values room least (reader >>= fun value => Pure.pure (change value)) final
      (filled >>= fun value => Pure.pure (otherChange value)) := by
  change Mirrors values room (least + 0) _ _ _
  exact front.bind fun value _ => .pure (same value)

theorem throw : Mirrors values room least (throw error : Reader α) image filled :=
  fun _ _ _ _ ran => absurd ran Reader.throw_ne_ok

theorem ite {condition : Prop} [Decidable condition] {second : Reader α} {other : Reader β}
    (holds : condition → Mirrors values room least reader image filled)
    (fails : ¬ condition → Mirrors values room least second image other) :
    Mirrors values room least (if condition then reader else second) image
      (if condition then filled else other) := by
  by_cases condition
  · rw [if_pos ‹_›, if_pos ‹_›]
    exact holds ‹_›
  · rw [if_neg ‹_›, if_neg ‹_›]
    exact fails ‹_›

/-- A value that is handed on. -/
theorem handed (mirrors : Mirrors values room least (following value) final (filledFollowing found)) :
    Mirrors values room least (Pure.pure value >>= following) final
      (Pure.pure found >>= filledFollowing) := by
  rwa [pure_bind, pure_bind]

theorem lift {checked : Except Error α} {other : Except Error β}
    (same : ∀ value, checked = .ok value → other = .ok (image value)) :
    Mirrors values room 0 (liftM checked : Reader α) image (liftM other : Reader β) := by
  intro cursor enough value after ran
  obtain ⟨passed, rfl⟩ := Reader.lift_eq_ok_iff.mp ran
  refine ⟨⟨rfl, Nat.le_refl _, Nat.le_refl _⟩, fun _ => ?_⟩
  rw [same value passed]
  rfl

/-! ## Tokens -/

/-- Readers that look at the first token. A placeholder may have become the start of a literal. -/
theorem look {looking : Reader (Option Token)} {following : Option Token → Reader γ}
    {filledFollowing : Option Token → Reader δ} (looks : Looks looking) (writable : Writable values)
    (ended : Mirrors values room least (following none) final (filledFollowing none))
    (seen : ∀ token rest fault first, token ≠ .symbol .question → (token :: rest).length ≤ room →
      MirrorsAt values least ⟨token :: rest, fault, first⟩ (following (some token)) final
        (filledFollowing (some token)))
    (hidden : ∀ token rest fault first, startsFiller token = true →
      (Token.symbol .question :: rest).length ≤ room →
      MirrorsAt values least ⟨.symbol .question :: rest, fault, first⟩
        (following (some (.symbol .question))) final (filledFollowing (some token))) :
    Mirrors values room least (looking >>= following) final (looking >>= filledFollowing) := by
  rintro ⟨tokens, fault, first⟩ enough result after ran
  obtain ⟨token, middle, looked, ran⟩ := Reader.bind_eq_ok_iff.mp ran
  obtain ⟨rfl, rfl, likewise⟩ := looks looked
  cases tokens with
  | nil =>
      have again : looking ⟨[], fault, 0⟩ = .ok (none, ⟨[], fault, 0⟩) := likewise ⟨[], fault, 0⟩ rfl id
      rw [filled_nil, Reader.bind_ok again, ← @filled_nil values _ first]
      exact ended enough ran
  | cons token rest =>
      have again (token : Token) (others : List Token) :
          looking ⟨token :: others, fault, 0⟩ = .ok (some token, ⟨token :: others, fault, 0⟩) :=
        likewise ⟨token :: others, fault, 0⟩ rfl fun none => nomatch none
      by_cases apart : token = .symbol .question
      · subst apart
        obtain ⟨leading, others, form, starts⟩ :=
          @filled_question_head _ rest fault writable first
        rw [form, Reader.bind_ok (again _ _), ← form]
        exact hidden leading rest fault first starts enough ran
      · rw [filled_cons apart, Reader.bind_ok (again _ _), ← filled_cons apart]
        exact seen token rest fault first apart enough ran

theorem takeIf {test : Token → Bool} {following : Option Token → Reader γ}
    {filledFollowing : Option Token → Reader δ} (writable : Writable values)
    (refuses : ∀ token, startsFiller token = true → test token = false)
    (taken : ∀ token, test token = true → 1 ≤ room →
      Mirrors values (room - 1) (least - 1) (following (some token)) final
        (filledFollowing (some token)))
    (passed : Mirrors values room least (following none) final (filledFollowing none)) :
    Mirrors values room least (Reader.takeIf test >>= following) final
      (Reader.takeIf test >>= filledFollowing) := by
  rintro ⟨tokens, fault, first⟩ enough result after ran
  cases tokens with
  | nil =>
      have none : ∀ first, Reader.takeIf test ⟨[], fault, first⟩ = .ok (none, ⟨[], fault, first⟩) :=
        fun _ => rfl
      rw [Reader.bind_ok (none first)] at ran
      rw [filled_nil, Reader.bind_ok (none 0), ← @filled_nil values _ first]
      exact passed enough ran
  | cons token rest =>
      by_cases apart : token = .symbol .question
      · subst apart
        obtain ⟨leading, others, form, starts⟩ :=
          @filled_question_head _ rest fault writable first
        have stops : Stops test (.symbol .question :: rest) := stops_cons (refuses _ rfl)
        rw [Reader.bind_ok (Reader.takeIf_stops stops)] at ran
        rw [form, Reader.bind_ok (Reader.takeIf_stops (stops_cons (refuses leading starts))), ← form]
        exact passed enough ran
      · cases passes : test token with
        | false =>
            rw [Reader.bind_ok (Reader.takeIf_stops (stops_cons passes))] at ran
            rw [filled_cons apart, Reader.bind_ok (Reader.takeIf_stops (stops_cons passes)),
              ← filled_cons apart]
            exact passed enough ran
        | true =>
            rw [Reader.bind_ok (Reader.takeIf_cons passes)] at ran
            have some : 1 ≤ room := Nat.le_trans (Nat.succ_pos _) enough
            have fewer : rest.length ≤ room - 1 := Nat.le_sub_one_of_lt enough
            obtain ⟨steps, same⟩ := taken token passes some fewer ran
            refine ⟨⟨steps.fault, steps.parameters, ?_⟩, fun given => ?_⟩
            · have := steps.tokens
              simp only [List.length_cons] at this ⊢
              omega
            · rw [filled_cons apart, Reader.bind_ok (Reader.takeIf_cons passes)]
              exact same given

theorem accept {wanted : Token} {following : Bool → Reader γ} {filledFollowing : Bool → Reader δ}
    (writable : Writable values) (plain : startsFiller wanted = false)
    (taken : 1 ≤ room →
      Mirrors values (room - 1) (least - 1) (following true) final (filledFollowing true))
    (passed : Mirrors values room least (following false) final (filledFollowing false)) :
    Mirrors values room least (Reader.accept wanted >>= following) final
      (Reader.accept wanted >>= filledFollowing) := by
  simp only [Reader.accept, bind_assoc, pure_bind]
  refine takeIf writable (fun token starts => ?_) (fun _ _ => taken) passed
  refine beq_eq_false_iff_ne.mpr fun same => ?_
  rw [same, plain] at starts
  cases starts

theorem next {following : Token → Reader γ} {filledFollowing : Token → Reader δ}
    (refuses : ∀ cursor result, following (.symbol .question) cursor ≠ .ok result)
    (each : ∀ token, token ≠ .symbol .question → 1 ≤ room →
      Mirrors values (room - 1) more (following token) final (filledFollowing token)) :
    Mirrors values room (1 + more) (Reader.next >>= following) final
      (Reader.next >>= filledFollowing) := by
  rintro ⟨tokens, fault, first⟩ enough result after ran
  cases tokens with
  | nil => cases ran
  | cons token rest =>
      have apart : token ≠ .symbol .question := by
        rintro rfl
        exact refuses _ _ ran
      exact MirrorsAt.head apart enough (each token apart) ran

theorem expect {wanted : Token} (apart : wanted ≠ .symbol .question) :
    Mirrors values room 1 (Reader.expect wanted) id (Reader.expect wanted) := by
  change Mirrors values room (1 + 0) _ _ _
  refine next (fun cursor result => ?_) fun token _ _ => ?_
  · rw [if_neg apart.symm]
    exact fun ran => nomatch ran
  · split
    · exact .pure rfl
    · exact .throw

theorem name : Mirrors values room 1 Reader.name id Reader.name := by
  change Mirrors values room (1 + 0) _ _ _
  refine next (fun cursor result ran => nomatch ran) fun token _ _ => ?_
  split
  · exact .pure rfl
  · exact .throw

/-! ## Lists -/

theorem separatedWithin {item : Reader α} {filledItem : Reader β} (writable : Writable values)
    {limit wider : Nat} (items : ∀ within, within ≤ room →
      Mirrors values within 1 item image filledItem)
    (enough : room ≤ limit) (wide : limit ≤ wider) :
    Mirrors values room 1 (Reader.separatedWithin item limit) (List.map image)
      (Reader.separatedWithin filledItem wider) := by
  induction limit generalizing room wider with
  | zero =>
      -- An item takes a token, and there is none.
      have none : ∀ filledFollowing : β → Reader (List β),
          Mirrors values room (1 + 0) (Reader.separatedWithin item 0) (List.map image)
            (filledItem >>= filledFollowing) := fun _ =>
        (items room (Nat.le_refl _)).bind fun _ some => absurd (Nat.le_trans some enough) (by decide)
      cases wider <;> exact none _
  | succ limit ih =>
      obtain ⟨wider, rfl⟩ : ∃ fewer, wider = fewer + 1 := ⟨wider - 1, by omega⟩
      change Mirrors values room (1 + 0) _ _ _
      refine (items room (Nat.le_refl _)).bind fun value some => ?_
      refine accept writable rfl (fun _ => ?_) (.pure rfl)
      have others := @ih (room - 1 - 1) wider (fun within fewer => items within (by omega))
        (by omega) (by omega)
      rw [if_pos rfl, if_pos rfl]
      refine mono ?_ (Nat.le_refl _) (Nat.zero_le 1)
      exact others.map fun _ => rfl

theorem separated {item : Reader α} {filledItem : Reader β} (writable : Writable values)
    (items : ∀ within, within ≤ room → Mirrors values within 1 item image filledItem) :
    Mirrors values room 1 (Reader.separated item) (List.map image)
      (Reader.separated filledItem) := by
  rintro ⟨tokens, fault, first⟩ enough result after ran
  exact separatedWithin writable (fun within fewer => items within (Nat.le_trans fewer enough))
    (Nat.le_refl _) (length_le_filled writable) (Nat.le_refl _) ran

end Mirrors

end Readers

end Coffer.Language
