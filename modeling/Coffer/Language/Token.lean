import Coffer.Language.Keyword

namespace Coffer.Language

/-! # Tokens

The words and marks that statements are made of.
-/

/-- Punctuation and operators. -/
inductive Symbol where
  | period | equal | greater | greaterOrEqual | less | lessOrEqual | lessOrGreater
  | plus | minus | asterisk | exclamation | notEqual | question
  | openParen | closeParen | comma | semicolon
  deriving DecidableEq, Repr

def Symbol.spelling : Symbol → String
  | .period => "."
  | .equal => "="
  | .greater => ">"
  | .greaterOrEqual => ">="
  | .less => "<"
  | .lessOrEqual => "<="
  | .lessOrGreater => "<>"
  | .plus => "+"
  | .minus => "-"
  | .asterisk => "*"
  | .exclamation => "!"
  | .notEqual => "!="
  | .question => "?"
  | .openParen => "("
  | .closeParen => ")"
  | .comma => ","
  | .semicolon => ";"

/-- A token. Numbers keep their text; strings and quoted names their content. -/
inductive Token where
  | number (text : String)
  | string (content : String)
  | identifier (name : String)
  | keyword (word : Keyword)
  | symbol (mark : Symbol)
  deriving DecidableEq, Repr

/-- The token as it is shown in messages and trigger bodies. -/
def Token.text : Token → String
  | .number text => text
  | .string content => content
  | .identifier name => name
  | .keyword word => word.spelling
  | .symbol mark => mark.spelling

end Coffer.Language
