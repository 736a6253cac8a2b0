import Coffer.Yaml.Cursor

namespace Coffer.Yaml

/-! # Anchors, tags and directives

A node can have an anchor, by which it is referred to, and a tag, which tells its kind. A tag
is a handle and a suffix. Directives tell about the document itself.
-/

/-- Takes one character if it is the expected one. -/
def expect? (c : Char) (cursor : Cursor) : Option Cursor :=
  if cursor.sees c then some cursor.step else none

namespace Anchor

/-- The marks that may follow the name of an anchor right away. -/
def followers : List Char := ['?', ':', ',', ']', '\x7d', '%', '@', '\x60']

/-- Reads the name of an anchor behind its mark. -/
def read? (cursor : Cursor) : Option (String × Cursor) :=
  let (name, after) := cursor.takeWhile isNameCharacter
  let ends := endsWord after.rest || after.rest.head?.any followers.contains
  if name.isEmpty || !ends then none else some (String.ofList name, after)

end Anchor

namespace Tag

/-- The characters of a suffix besides those of names. -/
def suffixMarks : List Char :=
  [';', '/', '?', ':', '@', '&', '=', '+', '$', ',', '.', '!', '~', '*', '\'', '(', ')', '[',
    ']', '%']

/-- How many bytes a character has that begins with a given one. -/
def byteCount? (lead : Nat) : Option Nat :=
  if lead < 0x80 then some 1
  else if 0xC0 ≤ lead ∧ lead < 0xE0 then some 2
  else if 0xE0 ≤ lead ∧ lead < 0xF0 then some 3
  else if 0xF0 ≤ lead ∧ lead < 0xF8 then some 4
  else none

/-- Reads a byte written as a percent sign and two hexadecimal digits. -/
def readByte? (cursor : Cursor) : Option (Nat × Cursor) :=
  match cursor.rest with
  | '%' :: high :: low :: _ =>
    (hexNumber? [high, low]).map fun byte => (byte, cursor.skip 3)
  | _ => none

/-- Reads further bytes of a character onto its code. -/
def readBytes? : (count code : Nat) → Cursor → Option (Nat × Cursor)
  | 0, code, cursor => some (code, cursor)
  | count + 1, code, cursor =>
    match readByte? cursor with
    | none => none
    | some (byte, after) =>
      if 0x80 ≤ byte ∧ byte < 0xC0 then readBytes? count (256 * code + byte) after else none

/-- Reads a character written in bytes, whose values make up its code. -/
def readEscape? (cursor : Cursor) : Option (Char × Cursor) := do
  let (lead, behind) ← readByte? cursor
  let count ← byteCount? lead
  let (code, after) ← readBytes? (count - 1) lead behind
  let c ← character? code
  some (c, after)

def readSuffix? : (fuel : Nat) → Cursor → Option (List Char × Cursor)
  | 0, _ => none
  | fuel + 1, cursor =>
    match cursor.rest with
    | [] => some ([], cursor)
    | c :: _ =>
      if c = '%' then
        match readEscape? cursor with
        | none => none
        | some (escaped, behind) =>
          (readSuffix? fuel behind).map fun found => (escaped :: found.1, found.2)
      else if isNameCharacter c || suffixMarks.contains c then
        (readSuffix? fuel cursor.step).map fun found => (c :: found.1, found.2)
      else some ([], cursor)

/-- Reads a suffix, which may be empty only behind something that belongs to it. -/
def suffix? (led : Bool) (cursor : Cursor) : Option (List Char × Cursor) := do
  let (suffix, after) ← readSuffix? (cursor.rest.length + 1) cursor
  if suffix.isEmpty && !led then none else some (suffix, after)

/-- Reads a handle: an exclamation mark, or a name between two of them. A name without the
second mark is the start of a suffix. -/
def handle? (cursor : Cursor) : Option (List Char × Cursor) := do
  let behind ← expect? '!' cursor
  let (name, after) := behind.takeWhile isNameCharacter
  if after.sees '!' then some ('!' :: name ++ ['!'], after.step)
  else some ('!' :: name, after)

/-- Whether a handle is closed by a second exclamation mark. -/
def isClosed (handle : List Char) : Bool :=
  2 ≤ handle.length && handle.getLast? == some '!'

/-- Reads a tag in one of its forms: in angles, with a closed handle, or as a suffix. -/
def readForm? (cursor : Cursor) : Option ((List Char × List Char) × Cursor) := do
  match cursor.rest with
  | _ :: '<' :: _ =>
    let (suffix, behind) ← suffix? false (cursor.skip 2)
    let after ← expect? '>' behind
    some (([], suffix), after)
  | _ =>
    let (handle, behind) ← handle? cursor
    if isClosed handle then
      let (suffix, after) ← suffix? false behind
      some ((handle, suffix), after)
    else
      let (more, after) ← suffix? true behind
      let suffix := handle.drop 1 ++ more
      some (if suffix.isEmpty then ([], ['!']) else (['!'], suffix), after)

/-- Reads a tag, which is a word of its own. -/
def read? (cursor : Cursor) : Option ((String × String) × Cursor) := do
  let ((handle, suffix), after) ← readForm? cursor
  if endsWord after.rest then some ((String.ofList handle, String.ofList suffix), after)
  else none

end Tag

namespace Directive

/-- Reads a part of a version, a number of at most nine digits. -/
def readNumber? (cursor : Cursor) : Option Cursor :=
  let (digits, after) := cursor.takeWhile Char.isDigit
  if digits.isEmpty || 9 < digits.length then none else some after

def readVersion? (cursor : Cursor) : Option Cursor := do
  let behind ← readNumber? (cursor.dropWhile isBlank)
  let minor ← expect? '.' behind
  readNumber? minor

def readHandle? (cursor : Cursor) : Option Cursor := do
  let (handle, behind) ← Tag.handle? (cursor.dropWhile isBlank)
  if handle.length ≠ 1 ∧ !Tag.isClosed handle then none
  let (_, after) ← Tag.suffix? false (behind.dropWhile isBlank)
  if endsWord after.rest then some after else none

/-- Reads a directive with its line. Those of other names are passed over. -/
def read? (cursor : Cursor) : Option Cursor := do
  let (name, behind) := cursor.step.takeWhile isNameCharacter
  if name.isEmpty || !endsWord behind.rest then none
  let content ←
    match String.ofList name with
    | "YAML" => readVersion? behind
    | "TAG" => readHandle? behind
    | _ => some (behind.dropWhile fun c => !isBreak c)
  let after := (content.dropWhile isBlank).skipComment
  if endsLine after.rest then some after.skipBreak else none

end Directive

end Coffer.Yaml
