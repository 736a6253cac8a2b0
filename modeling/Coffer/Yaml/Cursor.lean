namespace Coffer.Yaml

/-! # Places in a document

A document is read from a place that knows what is still to be read and where it is: how
many characters it is in, on which line and in which column. A line feed begins a line. A
carriage return alone ends a line, too, but columns go on behind it.
-/

def isBreak (c : Char) : Bool := c == '\n' || c == '\r'

def isBlank (c : Char) : Bool := c == ' ' || c == '\t'

/-- The characters that structure lists and mappings in brackets. -/
def isBracketMark (c : Char) : Bool :=
  [',', '[', ']', '\x7b', '\x7d'].contains c

/-- The characters of names of anchors, tags and directives. -/
def isNameCharacter (c : Char) : Bool :=
  c.isAlphanum || c == '_' || c == '-'

/-- The value of a hexadecimal digit of either case. -/
def hexDigit? (c : Char) : Option Nat :=
  if '0' ≤ c ∧ c ≤ '9' then some (c.toNat - 48)
  else if 'a' ≤ c ∧ c ≤ 'f' then some (c.toNat - 87)
  else if 'A' ≤ c ∧ c ≤ 'F' then some (c.toNat - 55)
  else none

/-- The number that hexadecimal digits stand for. -/
def hexNumber? (digits : List Char) : Option Nat :=
  (digits.mapM hexDigit?).map fun values =>
    values.foldl (fun number value => 16 * number + value) 0

def character? (code : Nat) : Option Char :=
  if code.isValidChar then some (Char.ofNat code) else none

/-- Whether a text is at its end, or goes on with a blank or a line break. -/
def endsWord : List Char → Bool
  | [] => true
  | c :: _ => isBlank c || isBreak c

/-- Whether a text is at its end, or goes on with a line break. -/
def endsLine : List Char → Bool
  | [] => true
  | c :: _ => isBreak c

structure Cursor where
  rest : List Char
  index : Nat
  line : Nat
  column : Nat
  deriving DecidableEq, Repr

namespace Cursor

/-- The start of a text. A null character ends the text. -/
def start (text : List Char) : Cursor :=
  { rest := text.takeWhile (· != '\x00'), index := 0, line := 1, column := 0 }

/-- The place behind the next character. -/
def step (cursor : Cursor) : Cursor :=
  match cursor.rest with
  | [] => cursor
  | '\n' :: rest =>
    { rest, index := cursor.index + 1, line := cursor.line + 1, column := 0 }
  | _ :: rest =>
    { rest, index := cursor.index + 1, line := cursor.line, column := cursor.column + 1 }

/-- The place behind some characters. -/
def skip : (count : Nat) → Cursor → Cursor
  | 0, cursor => cursor
  | count + 1, cursor => skip count cursor.step

/-- The next characters that pass a test, and the place behind them. -/
def takeWhile (test : Char → Bool) (cursor : Cursor) : List Char × Cursor :=
  let taken := cursor.rest.takeWhile test
  (taken, cursor.skip taken.length)

def dropWhile (test : Char → Bool) (cursor : Cursor) : Cursor :=
  (cursor.takeWhile test).2

/-- The place behind a line break, of which a carriage return with a line feed is one. -/
def skipBreak (cursor : Cursor) : Cursor :=
  match cursor.rest with
  | '\r' :: '\n' :: _ => cursor.skip 2
  | c :: _ => if isBreak c then cursor.step else cursor
  | [] => cursor

def sees (cursor : Cursor) (c : Char) : Bool :=
  cursor.rest.head? == some c

/-- Whether a line begins here with a mark of three characters and nothing else in its
first word. -/
def seesMark (cursor : Cursor) (mark : Char) : Bool :=
  cursor.column == 0 &&
    match cursor.rest with
    | a :: b :: c :: rest => a == mark && b == mark && c == mark && endsWord rest
    | _ => false

/-- Whether a document ends here. -/
def seesDocumentMark (cursor : Cursor) : Bool :=
  cursor.seesMark '-' || cursor.seesMark '.'

/-- The place behind a comment, if there is one. -/
def skipComment (cursor : Cursor) : Cursor :=
  if cursor.sees '#' then cursor.dropWhile fun c => !isBreak c else cursor

end Cursor

end Coffer.Yaml
