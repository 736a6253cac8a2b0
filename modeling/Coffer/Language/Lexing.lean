import Coffer.Language.Token
import Coffer.Text.Blank
import Coffer.Text.WordCharacter

namespace Coffer.Language

/-! # Lexing

Statement text is cut into tokens from the left, with blanks and `--` comments left
out between them. Reading stops at the first fault. A number whose exponent has no
digits is no token, yet it is consumed: the fault is then the character after it, and
at the end of the text there is none.
-/

/-- Why a text cannot be cut into tokens. -/
inductive LexicalFault where
  | unexpectedCharacter (found : Char)
  | openString
  | openIdentifier
  deriving DecidableEq, Repr

/-- The text after blanks and comments. A comment runs to the end of its line. -/
def afterGap : (inComment : Bool) → List Char → List Char
  | _, [] => []
  | true, c :: rest => afterGap (c != '\n') rest
  | false, '-' :: '-' :: rest => afterGap true rest
  | false, c :: rest => if Text.isBlank c then afterGap false rest else c :: rest

/-- The content of a quoted text and what follows the closing quote. A doubled quote
stands for one. -/
def quoted? (quote : Char) : List Char → Option (List Char × List Char)
  | [] => none
  | [c] => if c = quote then some ([], []) else none
  | c :: next :: rest =>
    if c = quote then
      if next = quote then (quoted? quote rest).map fun found => (quote :: found.1, found.2)
      else some ([], next :: rest)
    else (quoted? quote (next :: rest)).map fun found => (c :: found.1, found.2)

/-- A number cut off the text: its characters, the rest, and whether it is whole. -/
structure NumberScan where
  characters : List Char
  rest : List Char
  complete : Bool

def scanExponent : List Char → NumberScan
  | [] => ⟨[], [], true⟩
  | mark :: rest =>
    if mark == 'e' || mark == 'E' then
      let sign := (rest.take 1).filter fun c => c == '+' || c == '-'
      let after := rest.drop sign.length
      let digits := after.takeWhile Text.isDigit
      ⟨mark :: (sign ++ digits), after.dropWhile Text.isDigit, !digits.isEmpty⟩
    else ⟨[], mark :: rest, true⟩

def scanNumber (text : List Char) : NumberScan :=
  let whole := text.takeWhile Text.isDigit
  let after := text.dropWhile Text.isDigit
  let fraction := match after with
    | '.' :: rest => '.' :: rest.takeWhile Text.isDigit
    | _ => []
  let exponent := scanExponent (after.drop fraction.length)
  ⟨whole ++ (fraction ++ exponent.characters), exponent.rest, exponent.complete⟩

def isWordStart (c : Char) : Bool :=
  Text.isAlphabetic c || c == '_'

def isWordPart (c : Char) : Bool :=
  Text.isAlphanumeric c || c == '_'

/-- The token a bare word stands for: a keyword, or an identifier. -/
def wordToken (word : String) : Token :=
  match Keyword.ofWord? word with
  | some keyword => .keyword keyword
  | none => .identifier word

/-- The symbol at the head of a text and what follows it. The longest one is taken,
and a doubled equals sign is one. -/
def symbol? : List Char → Option (Symbol × List Char)
  | '.' :: rest => some (.period, rest)
  | '=' :: '=' :: rest => some (.equal, rest)
  | '=' :: rest => some (.equal, rest)
  | '>' :: '=' :: rest => some (.greaterOrEqual, rest)
  | '>' :: rest => some (.greater, rest)
  | '<' :: '=' :: rest => some (.lessOrEqual, rest)
  | '<' :: '>' :: rest => some (.lessOrGreater, rest)
  | '<' :: rest => some (.less, rest)
  | '+' :: rest => some (.plus, rest)
  | '-' :: rest => some (.minus, rest)
  | '*' :: rest => some (.asterisk, rest)
  | '!' :: '=' :: rest => some (.notEqual, rest)
  | '!' :: rest => some (.exclamation, rest)
  | '?' :: rest => some (.question, rest)
  | '(' :: rest => some (.openParen, rest)
  | ')' :: rest => some (.closeParen, rest)
  | ',' :: rest => some (.comma, rest)
  | ';' :: rest => some (.semicolon, rest)
  | _ => none

/-- What stands at the head of a text. -/
inductive Lexeme where
  | finished
  | found (token : Token) (rest : List Char)
  | faulty (fault : LexicalFault)
  deriving DecidableEq, Repr

/-- The fault at the head of a text where no token could be read. -/
def faultAt : List Char → Lexeme
  | [] => .finished
  | c :: _ => .faulty (.unexpectedCharacter c)

/-- The token at the head of a text that starts with no gap. -/
def lexemeAt : List Char → Lexeme
  | [] => .finished
  | c :: rest =>
    if c = '\x27' then
      match quoted? c rest with
      | some (content, after) => .found (.string (String.ofList content)) after
      | none => .faulty .openString
    else if c = '\x22' ∨ c = '\x60' then
      match quoted? c rest with
      | some (content, after) => .found (.identifier (String.ofList content)) after
      | none => .faulty .openIdentifier
    else if Text.isDigit c then
      let number := scanNumber (c :: rest)
      if number.complete then .found (.number (String.ofList number.characters)) number.rest
      else faultAt number.rest
    else if isWordStart c then
      .found (wordToken (String.ofList (c :: rest.takeWhile isWordPart)))
        (rest.dropWhile isWordPart)
    else
      match symbol? (c :: rest) with
      | some (mark, after) => .found (.symbol mark) after
      | none => .faulty (.unexpectedCharacter c)

/-- The next token of a text, after any gap. -/
def nextLexeme (text : List Char) : Lexeme :=
  lexemeAt (afterGap false text)

/-- The tokens of a text up to its end or to its first fault. -/
structure Tokens where
  tokens : List Token
  fault : Option LexicalFault
  deriving DecidableEq, Repr

def readTokens : (limit : Nat) → List Char → Tokens
  | 0, _ => ⟨[], none⟩
  | limit + 1, text =>
    match nextLexeme text with
    | .finished => ⟨[], none⟩
    | .faulty fault => ⟨[], some fault⟩
    | .found token rest =>
      let further := readTokens limit rest
      ⟨token :: further.tokens, further.fault⟩

/-- Cuts a text into tokens. Every token takes a character, so the length of the text
bounds their number. -/
def tokensOf (text : String) : Tokens :=
  let characters := text.toList
  readTokens (characters.length + 1) characters

end Coffer.Language
