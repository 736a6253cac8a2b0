import Coffer.Yaml.Cursor

namespace Coffer.Yaml

/-! # Plain and quoted text

Text without quotes ends at the marks around it. Text in single quotes writes a quote
twice, and text in double quotes writes characters with a backslash. All of them go on over
lines: one line break counts as a space, and of several the first is dropped.
-/

/-- What stands between two words: blanks, or line breaks without the blanks around them. -/
structure Gap where
  blanks : List Char
  breaks : Nat
  deriving DecidableEq, Repr

namespace Gap

def none : Gap := ⟨[], 0⟩

def text (gap : Gap) : List Char :=
  match gap.breaks with
  | 0 => gap.blanks
  | 1 => [' ']
  | breaks + 2 => List.replicate (breaks + 1) '\n'

/-- Reads on in a gap. In a line that is broken off, a tab may not stand before the margin. -/
def readOn? (margin : Nat) : (fuel : Nat) → Gap → Cursor → Option (Gap × Cursor)
  | 0, _, _ => Option.none
  | fuel + 1, gap, cursor =>
    match cursor.rest with
    | [] => some (gap, cursor)
    | c :: _ =>
      if isBreak c then readOn? margin fuel ⟨[], gap.breaks + 1⟩ cursor.skipBreak
      else if !isBlank c then some (gap, cursor)
      else if gap.breaks = 0 then
        readOn? margin fuel ⟨gap.blanks ++ [c], 0⟩ cursor.step
      else if c = '\t' ∧ cursor.column < margin then Option.none
      else readOn? margin fuel gap cursor.step

def read? (margin : Nat) (gap : Gap) (cursor : Cursor) : Option (Gap × Cursor) :=
  readOn? margin (cursor.rest.length + 1) gap cursor

end Gap

namespace Plain

/-- The first word of a plain text: up to a blank, or to a colon that ends a name. Inside
brackets it ends at their marks as well. -/
def word (bracketed : Bool) : List Char → List Char
  | [] => []
  | c :: rest =>
    let ends := isBlank c || isBreak c || (bracketed && isBracketMark c) ||
      (c == ':' && (endsWord rest || (bracketed && rest.head?.any isBracketMark)))
    if ends then [] else c :: word bracketed rest

/-- A plain text, whether a line break follows it, and the place behind both. -/
structure Found where
  text : List Char
  broken : Bool
  after : Cursor

/-- Reads words behind a gap. Outside brackets, lines go on only behind the margin. -/
def readWords? (bracketed : Bool) (margin : Nat) :
    (fuel : Nat) → Gap → Cursor → Option Found
  | 0, _, _ => none
  | fuel + 1, gap, cursor =>
    let ended : Found := { text := [], broken := gap.breaks != 0, after := cursor }
    if cursor.seesDocumentMark || cursor.sees '#' then some ended
    else
      let first := word bracketed cursor.rest
      let text := if first.isEmpty then [] else gap.text ++ first
      let behind := cursor.skip first.length
      if behind.rest.isEmpty || !endsWord behind.rest then
        some (if first.isEmpty then ended else { text, broken := false, after := behind })
      else
        match Gap.none.read? margin behind with
        | none => none
        | some (gap, after) =>
          if !bracketed && decide (after.column < margin) then
            some { text, broken := gap.breaks != 0, after }
          else
            (readWords? bracketed margin fuel gap after).map fun found =>
              { found with text := text ++ found.text }

def read? (bracketed : Bool) (margin : Nat) (cursor : Cursor) : Option Found :=
  readWords? bracketed margin (cursor.rest.length + 1) .none cursor

end Plain

namespace Quoted

/-- What a letter after a backslash stands for. -/
def escape? : Char → Option Char
  | '0' => some '\x00'
  | 'a' => some '\x07'
  | 'b' => some '\x08'
  | 't' | '\t' => some '\t'
  | 'n' => some '\n'
  | 'v' => some '\x0b'
  | 'f' => some '\x0c'
  | 'r' => some '\r'
  | 'e' => some '\x1b'
  | ' ' => some ' '
  | '\x22' => some '\x22'
  | '\'' => some '\''
  | '\\' => some '\\'
  | 'N' => some '\u0085'
  | '_' => some '\u00a0'
  | 'L' => some '\u2028'
  | 'P' => some '\u2029'
  | _ => none

/-- How many hexadecimal digits follow a letter after a backslash. -/
def codeLength? : Char → Option Nat
  | 'x' => some 2
  | 'u' => some 4
  | 'U' => some 8
  | _ => none

/-- Reads what follows a backslash, unless that is a line break. -/
def readEscape? (cursor : Cursor) : Option (Char × Cursor) :=
  match cursor.rest with
  | [] => none
  | mark :: rest =>
    match codeLength? mark with
    | none => (escape? mark).map fun c => (c, cursor.step)
    | some length =>
      if rest.length < length then none
      else
        ((hexNumber? (rest.take length)).bind character?).map fun c =>
          (c, cursor.skip (length + 1))

/-- Goes on behind a gap, where no document may end. -/
def behindGap? (text : List Char) (next : Cursor → Option (List Char × Cursor))
    (after : Cursor) : Option (List Char × Cursor) :=
  if after.seesDocumentMark then none
  else (next after).map fun found => (text ++ found.1, found.2)

/-- Reads the rest of a text in quotes of a kind. A backslash before a line break drops the
break with the blanks after it. -/
def readRest? (quote : Char) : (fuel : Nat) → Cursor → Option (List Char × Cursor)
  | 0, _ => none
  | fuel + 1, cursor =>
    match cursor.rest with
    | [] => none
    | c :: rest =>
      if isBlank c || isBreak c then
        match Gap.none.read? 0 cursor with
        | none => none
        | some (gap, after) => behindGap? gap.text (readRest? quote fuel) after
      else if c = quote then
        if quote = '\'' ∧ rest.head? = some quote then
          (readRest? quote fuel (cursor.skip 2)).map fun found => (quote :: found.1, found.2)
        else some ([], cursor.step)
      else if c = '\\' ∧ quote = '\x22' then
        if rest.head?.any isBreak then
          match Gap.read? 0 ⟨[], 1⟩ cursor.step.skipBreak with
          | none => none
          | some (gap, after) =>
            behindGap? (List.replicate (gap.breaks - 1) '\n') (readRest? quote fuel) after
        else
          match readEscape? cursor.step with
          | none => none
          | some (escaped, after) =>
            (readRest? quote fuel after).map fun found => (escaped :: found.1, found.2)
      else (readRest? quote fuel cursor.step).map fun found => (c :: found.1, found.2)

/-- Reads a text in quotes, which begins with one of them. -/
def read? (cursor : Cursor) : Option (List Char × Cursor) :=
  match cursor.rest with
  | quote :: rest => readRest? quote (rest.length + 1) cursor.step
  | [] => none

end Quoted

end Coffer.Yaml
