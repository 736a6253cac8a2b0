import Coffer.Yaml.Cursor

namespace Coffer.Yaml.Block

/-! # Text in blocks

A bar or an angle opens a text of whole lines, which share an indentation. Behind a bar the
lines stay as they are. Behind an angle the break between two lines counts as a space,
unless one of them begins with a blank. What becomes of the breaks at the end is told by a
sign.
-/

/-- What becomes of the line breaks at the end: one stays, none or all. -/
inductive Chomping where
  | clip
  | strip
  | keep
  deriving DecidableEq, Repr

/-- The sign in a header, if there is one. -/
def readSign (cursor : Cursor) : Chomping × Cursor :=
  if cursor.sees '+' then (.keep, cursor.step)
  else if cursor.sees '-' then (.strip, cursor.step)
  else (.clip, cursor)

/-- The indentation in a header, or zero if there is none. -/
def readWidth? (cursor : Cursor) : Option (Nat × Cursor) :=
  match cursor.rest with
  | c :: _ =>
    if !c.isDigit then some (0, cursor)
    else if c = '0' then none
    else some (c.toNat - 48, cursor.step)
  | [] => some (0, cursor)

/-- What a header tells: a sign and an indentation in either order. -/
structure Header where
  chomping : Chomping
  width : Nat

def readHeader? (cursor : Cursor) : Option (Header × Cursor) := do
  let (header, behind) ←
    match readSign cursor with
    | (.clip, _) => do
      let (width, behind) ← readWidth? cursor
      let (chomping, behind) := readSign behind
      some ({ chomping, width : Header }, behind)
    | (chomping, behind) => do
      let (width, behind) ← readWidth? behind
      some ({ chomping, width : Header }, behind)
  let behind := (behind.dropWhile isBlank).skipComment
  if endsLine behind.rest then some (header, behind.skipBreak) else none

/-- Whether a column is before an indentation. An indentation of zero is not known yet. -/
def isBefore (indentation : Nat) (cursor : Cursor) : Bool :=
  indentation == 0 || decide (cursor.column < indentation)

/-- The place behind the spaces before an indentation. -/
def skipSpaces (indentation : Nat) : (fuel : Nat) → Cursor → Cursor
  | 0, cursor => cursor
  | fuel + 1, cursor =>
    if isBefore indentation cursor && cursor.sees ' ' then
      skipSpaces indentation fuel cursor.step
    else cursor

/-- Empty lines: how deep the deepest of them and the start of the next line are, how many
they are, and the place behind them. -/
structure Blanks where
  deepest : Nat
  breaks : Nat
  after : Cursor

/-- Reads empty lines and the indentation of the next one, which may not hold a tab. -/
def readBlanks? (indentation : Nat) : (fuel : Nat) → Blanks → Option Blanks
  | 0, _ => none
  | fuel + 1, found =>
    let here := skipSpaces indentation found.after.rest.length found.after
    let deepest := max found.deepest here.column
    if isBefore indentation here && here.sees '\t' then none
    else if here.rest.head?.any isBreak then
      readBlanks? indentation fuel
        { deepest, breaks := found.breaks + 1, after := here.skipBreak }
    else some { deepest, breaks := found.breaks, after := here }

def blanks? (indentation : Nat) (cursor : Cursor) : Option Blanks :=
  readBlanks? indentation (cursor.rest.length + 1) { deepest := 0, breaks := 0, after := cursor }

/-- What comes before a line: whether a line has ended, how many empty lines follow it, and
whether it began with a blank. -/
structure Before where
  ended : Bool
  breaks : Nat
  blank : Bool

/-- What a line is joined with to those before it. -/
def Before.joint (before : Before) (literal blank : Bool) : List Char :=
  let folds := !literal && before.ended && !before.blank && !blank
  let first :=
    if !before.ended then []
    else if !folds then ['\n']
    else if before.breaks = 0 then [' ']
    else []
  first ++ List.replicate before.breaks '\n'

/-- Reads lines at an indentation: their text, what comes at its end, and the place behind
them. -/
def readLines? (literal : Bool) (indentation : Nat) :
    (fuel : Nat) → Before → Cursor → Option (List Char × Before × Cursor)
  | 0, _, _ => none
  | fuel + 1, before, cursor =>
    if cursor.rest.isEmpty || cursor.column != indentation then some ([], before, cursor)
    else
      let blank := cursor.rest.head?.any isBlank
      let (content, behind) := cursor.takeWhile fun c => !isBreak c
      let text := before.joint literal blank ++ content
      if behind.rest.isEmpty then
        some (text, { ended := false, breaks := 0, blank }, behind)
      else do
        let next ← blanks? indentation behind.skipBreak
        let (more, last, after) ←
          readLines? literal indentation fuel
            { ended := true, breaks := next.breaks, blank } next.after
        some (text ++ more, last, after)

/-- What stays of the line breaks at the end. -/
def Chomping.tail (chomping : Chomping) (last : Before) : List Char :=
  let one := if last.ended then ['\n'] else []
  match chomping with
  | .strip => []
  | .clip => one
  | .keep => one ++ List.replicate last.breaks '\n'

/-- Reads a text in a block behind its bar or angle. The lines are indented by the header's
width within the block around them, or else as the first of them is, and always behind the
margin. -/
def read? (literal : Bool) (margin : Nat) (cursor : Cursor) : Option (List Char × Cursor) := do
  let (header, behind) ← readHeader? cursor
  let given := if header.width = 0 then 0 else margin - 1 + header.width
  let first ← blanks? given behind
  let indentation := if given = 0 then max (max first.deepest margin) 1 else given
  let (text, last, after) ←
    readLines? literal indentation (cursor.rest.length + 1)
      { ended := false, breaks := first.breaks, blank := false } first.after
  some (text ++ header.chomping.tail last, after)

end Coffer.Yaml.Block
