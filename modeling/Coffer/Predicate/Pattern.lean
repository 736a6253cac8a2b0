import Coffer.Text.CaseFolding

namespace Coffer

/-! # Text patterns

A pattern is matched against a whole text: a percent sign takes any run of characters,
an underscore any one, and every other character itself up to case.
-/

/-- What one character of a pattern takes. -/
inductive PatternPart where
  | run
  | one
  | letter (character : Char)
  deriving DecidableEq, Repr

abbrev Pattern := List PatternPart

namespace Pattern

def partOf (c : Char) : PatternPart :=
  if c = '%' then .run else if c = '_' then .one else .letter c

def ofText (text : String) : Pattern :=
  text.toList.map partOf

def takes : PatternPart → Char → Bool
  | .run, _ => false
  | .one, _ => true
  | .letter expected, c => Text.sameLetter expected c

/-- From which ends of a text a match continues, if it may first take any run. -/
def afterRun : List Bool → List Bool
  | [] => []
  | here :: later =>
    let rest := afterRun later
    (here || rest.headD false) :: rest

/-- For each end of the text, from the whole of it down to none of it, whether the part
and then the rest of a pattern match it, given the same for the rest alone. -/
def matchPart (text : List Char) (part : PatternPart) (rest : List Bool) : List Bool :=
  match part with
  | .run => afterRun rest
  | part => (text.zip rest.tail).map (fun pair => takes part pair.1 && pair.2) ++ [false]

def matchEnds (text : List Char) (pattern : Pattern) : List Bool :=
  pattern.foldr (matchPart text) (text.map (fun _ => false) ++ [true])

def covers (pattern : Pattern) (text : String) : Bool :=
  (matchEnds text.toList pattern).headD false

end Pattern

end Coffer
