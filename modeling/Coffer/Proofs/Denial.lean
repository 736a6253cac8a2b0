import Coffer.Proofs.FoundStatement
import Coffer.Proofs.Reachable

namespace Coffer

/-! # Statements that a caller may not run

The first token of a text tells the type of the statement, and the type tells the permission
it takes. A caller without that permission learns nothing else about the statement.
-/

namespace Language

variable {text : String} {token : Token} {parsed : ParsedStatement}

/-- The lexer that stops after one token and the one that goes on agree on it. -/
theorem nextLexeme_of_head (head : (tokensOf text).tokens.head? = some token) :
    ∃ rest, nextLexeme text.toList = .found token rest := by
  simp only [tokensOf, readTokens] at head
  split at head
  · cases head
  · cases head
  · rename_i first rest lexeme
    cases head
    exact ⟨rest, lexeme⟩

/-- The first token alone tells the type of any text that is a statement. -/
theorem classify_of_parse (read : parse text = .ok parsed) :
    classify text = .ok parsed.statement.type := by
  obtain ⟨⟨found, count⟩, whole, made⟩ := bind_eq_ok_iff.mp read
  obtain rfl := pure_eq_ok_iff.mp made
  obtain ⟨⟨token, head, told⟩, -⟩ := parseStatement_eq_ok whole
  obtain ⟨rest, lexeme⟩ := nextLexeme_of_head head
  rw [classify, lexeme]
  exact told

end Language

theorem Access.allows_congr {access other : Access} {permission : Permission}
    (roles : other.roles = access.roles) (caller : Caller) :
    other.allows caller permission = access.allows caller permission := by
  cases caller <;> simp only [allows, roles]

namespace Database

variable {database : Database} {request : Request} {type : Language.StatementType}
variable {permission : Permission}

theorem authorize_eq_denied (needed : type.permission? = some permission)
    (lacking : database.state.access.allows request.caller permission = false) :
    database.authorize request.caller type = .error (.denied permission) := by
  rw [authorize, needed]
  simp only [Access.authorize, lacking, Bool.false_eq_true, if_false]

/-- The permission is looked at before anything else that may be wrong, whether the text is a
statement or not. -/
theorem perform_denied (told : Language.classify request.sql = .ok type)
    (needed : type.permission? = some permission)
    (lacking : database.state.access.allows request.caller permission = false) :
    database.perform request = (database, .error (.denied permission)) := by
  have denied := authorize_eq_denied needed lacking
  cases read : Language.parse request.sql with
  | error fault =>
      have refused : database.parse request = .error (.denied permission) := by
        simp only [parse_eq, read, told, denied]
        rfl
      rw [perform_eq, refused]
  | ok parsed =>
      have accepted : database.parse request = .ok parsed := by rw [parse_eq, read]
      have same : parsed.statement.type = type := by
        have classified := Language.classify_of_parse read
        rw [told] at classified
        exact (Except.ok.inj classified).symm
      have refused : database.check parsed request = .error (.denied permission) := by
        rw [check, same, denied, error_bind]
      simp only [perform_eq, accepted, performParsed_eq, refused]

/-- A caller without the permission that the first word of a text asks for is told so,
whatever else is wrong with the text and its parameters. The database stays as it was, and
any other one with the same roles gives the same answer. A text that is a statement has the
type that its first word tells. -/
theorem query_denied (database : Database) (request : Request) :
    (∀ type permission, Language.classify request.sql = .ok type →
      type.permission? = some permission →
      database.state.access.allows request.caller permission = false →
      database.query request = .error (.denied permission) ∧
      (database.perform request).1 = database ∧
      ∀ other : Database, other.state.access.roles = database.state.access.roles →
        other.query request = database.query request) ∧
    ∀ parsed, Language.parse request.sql = .ok parsed →
      Language.classify request.sql = .ok parsed.statement.type := by
  refine ⟨fun type permission told needed lacking => ?_, fun parsed => Language.classify_of_parse⟩
  have denied (any : Database)
      (lacking : any.state.access.allows request.caller permission = false) :
      any.query request = .error (.denied permission) :=
    query_eq_error_iff.mpr (congrArg Prod.snd (perform_denied told needed lacking))
  refine ⟨denied database lacking, congrArg Prod.fst (perform_denied told needed lacking), ?_⟩
  intro other roles
  rw [denied database lacking, denied other ((Access.allows_congr roles request.caller).trans lacking)]

/-- A text that is no statement, and one that is, of a table that one of the databases has. -/
theorem query_denied_unfinished :
    let database := fromTexts ["CREATE TABLE users (name TEXT)"]
    let unfinished : Request :=
      { sql := "DROP TABLE 'users", parameters := [.null], caller := .role "viewer" }
    let finished : Request := { unfinished with sql := "drop table users" }
    database.query unfinished = .error (.denied .drop) ∧
    fresh.query unfinished = .error (.denied .drop) ∧
    ∃ parsed, Language.parse finished.sql = .ok parsed ∧
      Language.classify finished.sql = .ok parsed.statement.type := by
  intro database unfinished finished
  obtain ⟨denied, -, same⟩ := (query_denied database unfinished).1 .drop .drop (by decide +kernel)
    rfl (by decide +kernel)
  have read : ∃ parsed, Language.parse finished.sql = .ok parsed := by
    cases parsed : Language.parse finished.sql with
    | ok found => exact ⟨found, rfl⟩
    | error fault =>
        have found : (Language.parse finished.sql).isOk = true := by decide +kernel
        rw [parsed] at found
        cases found
  obtain ⟨parsed, read⟩ := read
  exact ⟨denied, (same fresh (by decide +kernel)).trans denied, parsed, read,
    (query_denied database finished).2 parsed read⟩

end Database

end Coffer
