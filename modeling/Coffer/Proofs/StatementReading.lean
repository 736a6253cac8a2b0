import Coffer.Proofs.DefinitionReading
import Coffer.Proofs.Spacing

namespace Coffer.Language

/-! # Statements read back -/

variable {bound : Nat} {rest : List Token}

/-! ## Privileges -/

theorem privilege_reads (permission : Permission) :
    Reads bound privilege [.keyword (privilegeKeyword permission)] permission [] Anything := by
  have named : privilege? (privilegeKeyword permission) = some permission := by
    cases permission <;> rfl
  refine (takes (.keyword (privilegeKeyword permission))).last ?_
  dsimp only
  rw [named]

theorem privileges_reads {privileges : Privileges} (readable : privileges.Readable) :
    Reads bound Coffer.Language.privileges (tokensIn privileges.marks) privileges []
      (fun rest => Without (.symbol .comma) rest ∧ Without (.keyword .privileges) rest) := by
  cases privileges with
  | every =>
      refine (accepts (.keyword .all)).seq ?_
      exact (passes (.keyword .privileges)).bind (.pure Privileges.every) fun _ ends => ends.2
  | listed permissions =>
      have read : Reads bound (Reader.separated privilege) _ permissions _ _ :=
        separated_reads readable (fun permission _ => privilege_reads permission) fun _ => trivial
      have numbers : permissions.flatMap (fun _ => []) = ([] : List Nat) :=
        List.flatMap_eq_nil_iff.mpr fun _ _ => rfl
      have form : tokensIn (Privileges.listed permissions).marks = commaTokens (permissions.map
          fun permission => [.keyword (privilegeKeyword permission)]) := by
        rw [Privileges.marks, tokensIn_separated, List.map_map]
        rfl
      obtain ⟨permission, others, rfl⟩ := List.exists_cons_of_ne_nil readable
      rw [numbers] at read
      rw [form]
      refine (passes (.keyword .all)).bind (read.map.weaken fun _ ends => ⟨trivial, ends.1⟩) ?_
      intro rest _
      cases permission <;> exact without_cons (by decide)

/-- The tokens that name the table of a GRANT or REVOKE. -/
def tableTokens : Option String → List Token
  | none => []
  | some table => [.keyword .on] ++ [.identifier table]

theorem tokensIn_privilege {verb preposition : Keyword} {change : Privilege} :
    tokensIn (change.marks verb preposition) = [.keyword verb] ++ (tokensIn change.privileges.marks ++
      (tableTokens change.table ++ ([.keyword preposition] ++ ([.identifier change.grantee] ++ [])))) := by
  obtain ⟨privileges, table, grantee⟩ := change
  rw [Privilege.marks, Mark.word, tokensIn_token, tokensIn_space]
  simp only [tokensIn_append, tokensIn_clause, List.append_assoc]
  cases table <;> rfl

theorem privilegeChange_reads {verb preposition : Keyword} {change : Privilege}
    (readable : change.privileges.Readable) (known : preposition = .to ∨ preposition = .«from») :
    Reads bound (Reader.next >>= fun _ => privilegeChange preposition)
      (tokensIn (change.marks verb preposition)) change [] Anything := by
  obtain ⟨privileges, table, grantee⟩ := change
  have granted : ∀ table, Reads bound (do
      Reader.expectWord preposition
      let grantee ← Reader.name
      return (Privilege.mk privileges table grantee))
      ([.keyword preposition] ++ ([.identifier grantee] ++ [])) ⟨privileges, table, grantee⟩ [] Anything :=
    fun table => (expects (.keyword preposition)).seq ((takesName grantee).seq (.pure _))
  rw [tokensIn_privilege]
  refine (takes (.keyword verb)).seq ((privileges_reads readable).bind ?_ fun rest _ => ?_)
  · cases table with
    | none =>
        refine (passes (.keyword .on)).bind ((Reads.pure none).seq (granted none)) fun _ _ => ?_
        rcases known with rfl | rfl <;> exact without_cons (by decide)
    | some table =>
        refine (accepts (.keyword .on)).seq ?_
        dsimp only
        rw [if_pos rfl]
        refine (passes (.keyword .table)).bind ?_ fun _ _ => without_cons nofun
        exact (takesName table).seq ((Reads.pure (some table)).seq (granted (some table)))
  · cases table with
    | none => rcases known with rfl | rfl <;> exact ⟨without_cons (by decide), without_cons (by decide)⟩
    | some table => exact ⟨without_cons (by decide), without_cons (by decide)⟩

/-! ## Statements -/

theorem transaction_reads {type : StatementType} {statement : Statement}
    (simple : statementOf type = (do
      let _ ← Reader.next
      let _ ← Reader.acceptWord .transaction
      return statement)) :
    Reads bound (statementOf type) [.keyword type.keyword] statement [] (· = []) := by
  rw [simple]
  refine (takes (.keyword type.keyword)).seq ?_
  refine (passes (.keyword .transaction)).bind (.pure statement) ?_
  rintro rest rfl
  exact without_nil

theorem begin_reads : Reads bound (statementOf .begin) [.keyword .begin] .begin [] (· = []) := by
  rintro first rest rfl _ _
  rfl

/-- A statement whose content is read after its first keyword. -/
theorem content_reads {α : Type} {reader : Reader α} {content : α} {wrap : α → Statement}
    {tokens : List Token} {numbers : List Nat} {ends : List Token → Prop}
    (reads : Reads bound (Reader.next >>= fun _ => reader) tokens content numbers ends)
    (last : ends []) :
    Reads bound (Reader.next >>= fun _ => reader >>= fun found => pure (wrap found)) tokens
      (wrap content) numbers (· = []) := by
  have whole : Reads bound (Reader.next >>= fun _ => reader >>= fun found => pure (wrap found)) tokens
      (wrap content) numbers ends := by
    rw [← bind_assoc]
    exact reads.map
  refine whole.weaken ?_
  rintro rest rfl
  exact last

variable {statement : Statement}

theorem statementOf_reads (faithful : statement.Faithful) :
    Reads bound (statementOf statement.type) (tokensIn statement.marks) statement
      statement.placeholders (· = []) := by
  obtain ⟨readable, faithful, defaults⟩ := faithful
  cases statement with
  | begin => exact begin_reads
  | commit => exact transaction_reads rfl
  | rollback => exact transaction_reads rfl
  | create body =>
      refine content_reads (create_reads readable faithful ?_) rfl
      intro columns content
      obtain ⟨name, guarded, short, definition⟩ := body
      cases content
      exact defaults
  | drop body => exact content_reads (drop_reads body) trivial
  | alter body =>
      refine content_reads (alter_reads ?_) rfl
      intro column content
      obtain ⟨table, action⟩ := body
      cases content
      exact defaults column List.mem_cons_self
  | select body => exact (select_reads readable faithful).map
  | insert body => exact (insert_reads readable faithful).map
  | update body => exact (update_reads readable faithful).map
  | delete body => exact (delete_reads faithful).map
  | grant change => exact content_reads (privilegeChange_reads readable (.inl rfl)) trivial
  | revoke change => exact content_reads (privilegeChange_reads readable (.inr rfl)) trivial

theorem tokensIn_statement (statement : Statement) :
    ∃ others, tokensIn statement.marks = .keyword statement.type.keyword :: others := by
  cases statement <;> exact ⟨_, rfl⟩

theorem ofToken_keyword (type : StatementType) :
    StatementType.ofToken (.keyword type.keyword) = .ok type := by
  cases type <;> rfl

theorem statement_reads (faithful : statement.Faithful) :
    Reads bound Coffer.Language.statement (tokensIn statement.marks) statement
      statement.placeholders (· = []) := by
  obtain ⟨others, form⟩ := tokensIn_statement statement
  refine .peeked ?_ fun rest _ => congrArg List.head? (congrArg (· ++ rest) form)
  dsimp only
  rw [ofToken_keyword]
  exact (lifts statement.type).seq (statementOf_reads faithful)

theorem wholeStatement_reads (faithful : statement.Faithful) :
    Reads bound wholeStatement (tokensIn statement.marks) statement statement.placeholders
      (· = []) := by
  rintro first rest rfl numbered room
  rw [wholeStatement, Reader.bind_ok (statement_reads faithful rfl numbered room)]
  rfl

theorem isTrigger_eq_false (readable : statement.Readable) : statement.isTrigger = false := by
  cases statement with
  | create body =>
      obtain ⟨name, guarded, short, definition⟩ := body
      cases definition with
      | trigger body => exact readable.elim
      | _ => rfl
  | _ => rfl

/-- Rendering undoes parsing: a statement is read back from its rendering, with the numbers of
its placeholders. -/
theorem parseStatement_render (faithful : statement.Faithful)
    (legible : ∀ mark ∈ statement.marks, mark.isLegible = true)
    (numbered : Consecutive 0 statement.placeholders) :
    parseStatement statement.render = .ok (statement, statement.placeholders.length) := by
  have spaced := spaced_statement statement (isTrigger_eq_false faithful.readable)
  have read : Reads (tokensIn statement.marks ++ []).length wholeStatement _ statement _ _ :=
    wholeStatement_reads faithful
  have parsed := read rfl numbered (Nat.le_refl _)
  rw [List.append_nil, Nat.zero_add] at parsed
  rw [parseStatement, Statement.render, Cursor.ofText, tokensOf_writtenMarks spaced legible, parsed]

end Coffer.Language
