import Coffer.Error

namespace Coffer.Language

/-! # Reading tokens

Statements are read from a token list by functions that take tokens off its head. A
fault of the text stands behind the last token before it: it is reported when a token
is wanted there, and passed over when a token is only looked for.
-/

/-- The tokens still to be read and the number of placeholders read so far. -/
structure Cursor where
  tokens : List Token
  fault : Option LexicalFault
  parameters : Nat
  deriving DecidableEq, Repr

abbrev Reader := StateT Cursor (Except Error)

namespace Cursor

def ofText (text : String) : Cursor :=
  let found := tokensOf text
  { tokens := found.tokens, fault := found.fault, parameters := 0 }

/-- The error of wanting a token where there is none. -/
def missing (cursor : Cursor) : Error :=
  match cursor.fault with
  | some fault => .lexical fault
  | none => .endOfInput

end Cursor

namespace Reader

def next : Reader Token := fun cursor =>
  match cursor.tokens with
  | [] => .error cursor.missing
  | token :: rest => .ok (token, { cursor with tokens := rest })

/-- The next token, if there is one and whatever a fault may say. -/
def glance : Reader (Option Token) := fun cursor =>
  .ok (cursor.tokens.head?, cursor)

/-- The next token, if the text goes on; a fault of the text is reported. -/
def peek : Reader (Option Token) := fun cursor =>
  match cursor.tokens, cursor.fault with
  | [], some fault => .error (.lexical fault)
  | tokens, _ => .ok (tokens.head?, cursor)

/-- Takes the next token if it passes a test. -/
def takeIf (test : Token → Bool) : Reader (Option Token) := fun cursor =>
  match cursor.tokens with
  | token :: rest =>
    if test token then .ok (some token, { cursor with tokens := rest }) else .ok (none, cursor)
  | [] => .ok (none, cursor)

/-- Takes the next token if it is the given one, and says whether it was. -/
def accept (wanted : Token) : Reader Bool := do
  let found ← takeIf fun token => token == wanted
  return found.isSome

def acceptWord (keyword : Keyword) : Reader Bool :=
  accept (.keyword keyword)

def acceptSymbol (symbol : Symbol) : Reader Bool :=
  accept (.symbol symbol)

/-- Takes the next token, which has to be the given one. -/
def expect (wanted : Token) : Reader Unit := do
  let found ← next
  if found = wanted then return () else throw (.expectedToken wanted found)

def expectWord (keyword : Keyword) : Reader Unit :=
  expect (.keyword keyword)

def expectSymbol (symbol : Symbol) : Reader Unit :=
  expect (.symbol symbol)

/-- Checks that nothing is left. -/
def ended : Reader Unit := do
  match ← peek with
  | some token => throw (.expectedEnd token)
  | none => return ()

def name : Reader String := do
  match ← next with
  | .identifier name => return name
  | token => throw (.expectedIdentifier token)

def isIdentifier : Token → Bool
  | .identifier _ => true
  | _ => false

def isKeyword : Token → Bool
  | .keyword _ => true
  | _ => false

def name? : Reader (Option String) := do
  match ← takeIf isIdentifier with
  | some (.identifier name) => return some name
  | _ => return none

/-- Reads items separated by commas, at most one more than the given number. -/
def separatedWithin (item : Reader α) : Nat → Reader (List α)
  | 0 => do
    let only ← item
    return [only]
  | more + 1 => do
    let first ← item
    if ← acceptSymbol .comma then
      let rest ← separatedWithin item more
      return first :: rest
    else return [first]

/-- Reads items separated by commas. Each comma is a token, so the tokens bound them. -/
def separated (item : Reader α) : Reader (List α) := fun cursor =>
  separatedWithin item cursor.tokens.length cursor

/-- Reads names in parentheses; the list may be empty. -/
def names : Reader (List String) := do
  expectSymbol .openParen
  if ← acceptSymbol .closeParen then return []
  let found ← separated name
  expectSymbol .closeParen
  return found

/-- Reads a number without sign or fraction. -/
def count : Reader Nat := do
  match ← next with
  | .number text =>
    match Numeral.natural64 text.toList with
    | .ok count => return count
    | .error fault => throw (.integer fault)
  | token => throw (.expectedNumber token)

end Reader

end Coffer.Language
