import Coffer.Yaml.Block
import Coffer.Yaml.Flowing
import Coffer.Yaml.Property

namespace Coffer.Yaml

/-! # Tokens

The marks and texts of a document. Blocks, which the document shows by indentation alone,
have tokens at their start and end, and so have the names in mappings.
-/

inductive Token where
  /-- A line that begins with a percent sign. -/
  | directive
  | documentStart
  | documentEnd
  | sequenceStart
  | mappingStart
  | blockEnd
  | bracketStart
  | bracketEnd
  | braceStart
  | braceEnd
  /-- A dash before an item of a block. -/
  | item
  | comma
  /-- Stands before a name. -/
  | name
  /-- A colon before what is given for a name. -/
  | value
  /-- Gives the name of an anchor for the node it stands for. -/
  | reference (anchor : String)
  | anchor (name : String)
  | tag (handle suffix : String)
  /-- A text. Only one without quotes can stand for something else. -/
  | scalar (plain : Bool) (text : String)
  deriving DecidableEq, Repr

/-! # The layout of a document

A document is cut into tokens from its start on. Blocks begin where something stands deeper
than the block around it and end where something stands less deep. A name is told from other
text by the colon behind it, so each place where one may begin is kept until it is too late
for the colon: at the end of its line, or a thousand characters on.
-/

structure NamePlace where
  /-- The number of tokens before it. -/
  position : Nat
  cursor : Cursor
  /-- Whether nothing but a name may stand there. -/
  required : Bool

namespace NamePlace

/-- The most characters that a name with what surrounds it can have. -/
def reach : Nat := 1024

/-- Whether a colon is too late for a name. -/
def isStale (place : NamePlace) (cursor : Cursor) : Bool :=
  decide (place.cursor.line < cursor.line) ||
    decide (place.cursor.index + reach < cursor.index)

/-- What is left of a place as reading goes on. -/
def kept? (cursor : Cursor) (place : Option NamePlace) : Option (Option NamePlace) :=
  match place with
  | none => some none
  | some place =>
    if !place.isStale cursor then some (some place)
    else if place.required then none
    else some none

def dropped? (place : Option NamePlace) : Option (Option NamePlace) :=
  if place.any (·.required) then none else some none

end NamePlace

/-- How far a document is cut into tokens. -/
structure Layout where
  cursor : Cursor
  tokens : Array Token
  /-- The columns of the blocks that are open, the innermost first. -/
  columns : List Nat
  /-- Where a name may have begun outside all brackets, or in the innermost ones. -/
  place : Option NamePlace
  /-- Where a name may have begun around the brackets that are open, the innermost first. -/
  outer : List (Option NamePlace)
  /-- Whether a name may begin here. -/
  nameAllowed : Bool
  /-- Where the last quoted text ends, behind which a colon needs no blank in brackets. -/
  quoteEnd : Nat

namespace Layout

def start (text : List Char) : Layout :=
  { cursor := .start text, tokens := #[], columns := [], place := none, outer := []
    nameAllowed := true, quoteEnd := 0 }

/-- Whether brackets are open, in which indentation does not count. -/
def bracketed (layout : Layout) : Bool := !layout.outer.isEmpty

/-- The first column behind that of the innermost block. -/
def margin (layout : Layout) : Nat :=
  match layout.columns with
  | [] => 0
  | column :: _ => column + 1

def push (token : Token) (layout : Layout) : Layout :=
  { layout with tokens := layout.tokens.push token }

def moved (cursor : Cursor) (layout : Layout) : Layout := { layout with cursor }

/-- Adds a mark of one character as a token. -/
def pushMark (token : Token) (layout : Layout) : Layout :=
  (layout.push token).moved layout.cursor.step

def allowing (nameAllowed : Bool) (layout : Layout) : Layout := { layout with nameAllowed }

/-- The columns of the blocks that stay open at a column, given by how many columns are
before it and itself, and how many blocks end. -/
def closed (columns : List Nat) (limit : Nat) : List Nat × Nat :=
  let ended := columns.takeWhile fun column => decide (limit ≤ column)
  (columns.drop ended.length, ended.length)

/-- Ends the blocks that begin at a limit or behind it. -/
def close (limit : Nat) (layout : Layout) : Layout :=
  if layout.bracketed then layout
  else
    let (columns, count) := closed layout.columns limit
    { layout with columns, tokens := layout.tokens ++ Array.replicate count .blockEnd }

/-- Begins a block at a column, unless one has begun there or behind it. Its token goes to a
position among the others. -/
def openAt (column position : Nat) (token : Token) (layout : Layout) : Layout :=
  if layout.bracketed || layout.columns.head?.any fun current => decide (column ≤ current) then
    layout
  else
    { layout with
      columns := column :: layout.columns
      tokens := layout.tokens.insertIdxIfInBounds position token }

/-- Begins a block here. -/
def openHere (token : Token) (layout : Layout) : Layout :=
  layout.openAt layout.cursor.column layout.tokens.size token

/-- Gives up the last place where a name may have begun. -/
def withoutPlace? (layout : Layout) : Option Layout :=
  (NamePlace.dropped? layout.place).map fun place => { layout with place }

/-- Keeps this place if a name may begin here. -/
def withPlace? (layout : Layout) : Option Layout :=
  if !layout.nameAllowed then some layout
  else
    layout.withoutPlace?.map fun cleared =>
      { cleared with
        place := some
          { position := layout.tokens.size
            cursor := layout.cursor
            required := layout.bracketed && layout.columns.head? == some layout.cursor.column } }

/-- Gives up the places for which a colon is too late. -/
def withoutStale? (layout : Layout) : Option Layout := do
  let place ← NamePlace.kept? layout.cursor layout.place
  let outer ← layout.outer.mapM (NamePlace.kept? layout.cursor)
  some { layout with place, outer }

/-- Skips what stands before a token: blanks, comments and line breaks. A tab may not stand
where a name could begin. Outside brackets a name may begin on each line. -/
def skipSpace : (fuel : Nat) → Layout → Layout
  | 0, layout => layout
  | fuel + 1, layout =>
    match layout.cursor.rest with
    | [] => layout
    | c :: _ =>
      if c = ' ' ∨ (c = '\t' ∧ (layout.bracketed ∨ !layout.nameAllowed)) then
        skipSpace fuel (layout.moved layout.cursor.step)
      else if c = '#' then skipSpace fuel (layout.moved layout.cursor.skipComment)
      else if isBreak c then
        skipSpace fuel
          ((layout.moved layout.cursor.skipBreak).allowing
            (layout.nameAllowed || !layout.bracketed))
      else layout

/-- The most brackets that can be open. -/
def depthLimit : Nat := 255

/-- A bracket that opens a list or a mapping. It may begin a name itself. -/
def openBracket? (token : Token) (layout : Layout) : Option Layout := do
  let kept ← layout.withPlace?
  if depthLimit ≤ kept.outer.length then none
  let inner := { kept with outer := kept.place :: kept.outer, place := none }
  some ((inner.allowing true).pushMark token)

/-- A bracket that closes a list or a mapping. -/
def closeBracket? (token : Token) (layout : Layout) : Option Layout := do
  let cleared ← layout.withoutPlace?
  let left := match cleared.outer with
    | [] => cleared
    | place :: outer => { cleared with place, outer }
  some ((left.allowing false).pushMark token)

def comma? (layout : Layout) : Option Layout :=
  layout.withoutPlace?.map fun cleared => (cleared.allowing true).pushMark .comma

/-- A dash before an item, which only blocks have. -/
def item? (layout : Layout) : Option Layout :=
  if layout.bracketed || !layout.nameAllowed then none
  else
    (layout.openHere .sequenceStart).withoutPlace?.map fun cleared =>
      (cleared.allowing true).pushMark .item

/-- A question mark before a name. -/
def name? (layout : Layout) : Option Layout :=
  if !layout.bracketed && !layout.nameAllowed then none
  else
    (layout.openHere .mappingStart).withoutPlace?.map fun cleared =>
      (cleared.allowing !layout.bracketed).pushMark .name

/-- A colon. The name before it, if there is one, gets its token, and a mapping begins with
it if none has. -/
def value? (layout : Layout) : Option Layout :=
  match layout.place with
  | some place =>
    let named := { layout with
      tokens := layout.tokens.insertIdxIfInBounds place.position .name
      place := none }
    some (((named.openAt place.cursor.column place.position .mappingStart).allowing
      false).pushMark .value)
  | none =>
    if !layout.bracketed && !layout.nameAllowed then none
    else
      some (((layout.openHere .mappingStart).allowing !layout.bracketed).pushMark .value)

/-- A mark at the start of a line between documents. -/
def documentMark? (token : Token) (layout : Layout) : Option Layout :=
  (layout.close 0).withoutPlace?.map fun cleared =>
    ((cleared.allowing false).push token).moved (layout.cursor.skip 3)

def directive? (layout : Layout) : Option Layout := do
  let cleared ← (layout.close 0).withoutPlace?
  let after ← Directive.read? layout.cursor
  some (((cleared.allowing false).push .directive).moved after)

def anchor? (token : String → Token) (layout : Layout) : Option Layout := do
  let kept ← layout.withPlace?
  let (name, after) ← Anchor.read? layout.cursor.step
  some (((kept.allowing false).push (token name)).moved after)

def tag? (layout : Layout) : Option Layout := do
  let kept ← layout.withPlace?
  let ((handle, suffix), after) ← Tag.read? layout.cursor
  some (((kept.allowing false).push (.tag handle suffix)).moved after)

def block? (literal : Bool) (layout : Layout) : Option Layout := do
  let kept ← layout.withPlace?
  let (text, after) ← Block.read? literal layout.margin layout.cursor.step
  some (((kept.allowing true).push (.scalar false (String.ofList text))).moved after)

def quoted? (layout : Layout) : Option Layout := do
  let kept ← layout.withPlace?
  let (text, after) ← Quoted.read? layout.cursor
  let read := ((kept.allowing false).push (.scalar false (String.ofList text))).moved after
  some { read with quoteEnd := after.index }

def plain? (layout : Layout) : Option Layout := do
  let kept ← layout.withPlace?
  let found ← Plain.read? layout.bracketed layout.margin layout.cursor
  some (((kept.allowing found.broken).push (.scalar true (String.ofList found.text))).moved
    found.after)

/-- Whether a colon with this behind it stands for a token. -/
def isColon (layout : Layout) (rest : List Char) : Bool :=
  endsWord rest ||
    (layout.bracketed &&
      (rest.head?.any isBracketMark || layout.cursor.index == layout.quoteEnd))

/-- Reads the token that begins with a character. -/
def token? (layout : Layout) (c : Char) (rest : List Char) : Option Layout :=
  if layout.cursor.column = 0 ∧ c = '%' then layout.directive?
  else if layout.cursor.seesMark '-' then layout.documentMark? .documentStart
  else if layout.cursor.seesMark '.' then layout.documentMark? .documentEnd
  else if c = '[' then layout.openBracket? .bracketStart
  else if c = '\x7b' then layout.openBracket? .braceStart
  else if c = ']' then layout.closeBracket? .bracketEnd
  else if c = '\x7d' then layout.closeBracket? .braceEnd
  else if c = ',' then layout.comma?
  else if c = '-' ∧ endsWord rest then layout.item?
  else if c = '?' ∧ endsWord rest then layout.name?
  else if c = ':' ∧ layout.isColon rest then layout.value?
  else if c = '*' then layout.anchor? .reference
  else if c = '&' then layout.anchor? .anchor
  else if c = '!' then layout.tag?
  else if c = '|' ∧ !layout.bracketed then layout.block? true
  else if c = '>' ∧ !layout.bracketed then layout.block? false
  else if c = '\'' ∨ c = '\x22' then layout.quoted?
  else if c = '%' ∨ c = '@' ∨ c = '\x60' then none
  else layout.plain?

/-- Reads tokens up to the end. Each takes a character, which bounds them. -/
def readAll? : (fuel : Nat) → Layout → Option (List Token)
  | 0, _ => none
  | fuel + 1, layout => do
    let next ← (skipSpace layout.cursor.rest.length layout).withoutStale?
    let closed := next.close (next.cursor.column + 1)
    match closed.cursor.rest with
    | [] =>
      let ended ← (closed.close 0).withoutPlace?
      some ended.tokens.toList
    | c :: rest =>
      let further ← closed.token? c rest
      readAll? fuel further

end Layout

def tokens? (text : String) : Option (List Token) :=
  let characters := text.toList
  Layout.readAll? (characters.length + 1) (Layout.start characters)

end Coffer.Yaml
