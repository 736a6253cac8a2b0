import Coffer.Encoding.Bytes
import Coffer.Number.RealText

namespace Coffer

/-! # JSON documents

A document keeps its numbers and strings as they are spelled: what they stand for is
asked only where something is read from them. Writing is the inverse of that.
-/

inductive Json where
  | null
  | boolean (truth : Bool)
  /-- A number, as it is spelled. -/
  | number (spelling : Bytes)
  /-- What stands between the quotes of a string. -/
  | string (spelling : Bytes)
  | array (items : List Json)
  /-- Members with the spelling of their names. -/
  | object (members : List (Bytes × Json))
  deriving Repr, Inhabited

namespace Json

/-- A hexadecimal digit in lower case. -/
def lowerDigit (value : Nat) : Char :=
  Char.ofNat (if value < 10 then 48 + value else 87 + value)

/-- A character inside of a string. Quotes, backslashes and control characters are
escaped. -/
def escaped (c : Char) : List Char :=
  if c = '\x22' then ['\\', c]
  else if c = '\\' then ['\\', c]
  else if c.toNat = 8 then ['\\', 'b']
  else if c.toNat = 9 then ['\\', 't']
  else if c.toNat = 10 then ['\\', 'n']
  else if c.toNat = 12 then ['\\', 'f']
  else if c.toNat = 13 then ['\\', 'r']
  else if c.toNat < 32 then
    ['\\', 'u', '0', '0', lowerDigit (c.toNat / 16), lowerDigit (c.toNat % 16)]
  else [c]

def spelled (text : String) : Bytes :=
  Bytes.ofText (String.ofList (text.toList.flatMap escaped))

def ofText (text : String) : Json :=
  .string (spelled text)

def ofInt (number : Int) : Json :=
  .number (Bytes.ofText (integerText number))

/-- A real as a number; an infinite or undefined one is null. -/
def ofReal (x : Binary64) : Json :=
  if x.isFinite then .number (Bytes.ofText (RealLayout.document.text x)) else .null

def ofMembers (members : List (String × Json)) : Json :=
  .object (members.map fun member => (spelled member.1, member.2))

def ofOption (encode : α → Json) : Option α → Json
  | none => .null
  | some content => encode content

def ofList (encode : α → Json) (items : List α) : Json :=
  .array (items.map encode)

def ascii (text : String) : Bytes :=
  Bytes.ofText text

/-- A string between its quotes. -/
def quoted (spelling : Bytes) : Bytes :=
  34 :: (spelling ++ [34])

mutual
/-- The bytes of a document, without blanks. -/
def written : Json → Bytes
  | .null => ascii "null"
  | .boolean true => ascii "true"
  | .boolean false => ascii "false"
  | .number spelling => spelling
  | .string spelling => quoted spelling
  | .array items => 91 :: (writtenItems items ++ [93])
  | .object members => 123 :: (writtenMembers members ++ [125])

/-- Items set off by commas. -/
def writtenItems : List Json → Bytes
  | [] => []
  | [item] => item.written
  | item :: rest => item.written ++ 44 :: writtenItems rest

/-- Members set off by commas, each with a colon behind its name. -/
def writtenMembers : List (Bytes × Json) → Bytes
  | [] => []
  | [(name, content)] => quoted name ++ 58 :: content.written
  | (name, content) :: rest =>
    quoted name ++ 58 :: (content.written ++ 44 :: writtenMembers rest)
end

def toText (document : Json) : String :=
  (Bytes.text? document.written).getD ""

end Json

end Coffer
