import Coffer.Number.Numeral
import Coffer.Yaml.Cursor

namespace Coffer.Yaml

/-! # Nodes

What a document holds: scalars, sequences and mappings. A plain text stands for a null, a
switch or a number if it has the form of one, and a tag can ask for a kind. Mappings keep
what is given for names that are text.
-/

inductive Node where
  /-- A text that is not of the kind that its tag asks for. -/
  | invalid
  | null
  | boolean (truth : Bool)
  | integer (number : Int64)
  /-- A real, or an infinite or undefined one, as it is written. -/
  | real (text : String)
  | text (content : String)
  | sequence (items : List Node)
  | mapping (entries : List (String × Node))

namespace Node

/-- A whole number written in another base after a mark of two characters. -/
def based? (base : Nat) (mark : List Char) (text : List Char) : Option Int64 :=
  if text.take 2 = mark then
    let signed := Numeral.splitSign (text.drop 2)
    match signed.2.mapM fun c => (hexDigit? c).filter fun value => decide (value < base) with
    | none | some [] => none
    | some values =>
      let size : Int := (values.foldl (fun size value => base * size + value) 0 : Nat)
      let number := if signed.1 then -size else size
      if -(Nat.pow 2 63) ≤ number ∧ number < Nat.pow 2 63 then some (Int64.ofInt number)
      else none
  else none

/-- A whole number after a sign of its own. -/
def afterPlus? : List Char → Option Int64
  | '+' :: rest => (Numeral.int64 rest).toOption
  | _ => none

/-- The whole number that a plain text stands for, apart from those in plain digits. -/
def marked? (text : List Char) : Option Int64 :=
  ((based? 16 ['0', 'x'] text).or (based? 8 ['0', 'o'] text)).or (afterPlus? text)

/-- Spellings of infinite and undefined reals that begin with a point. -/
def pointedReals : List String :=
  [".inf", ".Inf", ".INF", "+.inf", "+.Inf", "+.INF", "-.inf", "-.Inf", "-.INF",
    ".nan", ".NAN"]

def isReal (text : String) : Bool :=
  pointedReals.contains text || (Numeral.real? text.toList).isSome

/-- What a plain text without a tag stands for. -/
def ofPlain (text : String) : Node :=
  match marked? text.toList with
  | some number => .integer number
  | none =>
    if text == "~" || text == "null" then .null
    else if text == "true" then .boolean true
    else if text == "false" then .boolean false
    else
      match Numeral.int64 text.toList with
      | .ok number => .integer number
      | .error _ => if isReal text then .real text else .text text

/-- What a plain text stands for under the suffix of a standard tag. -/
def ofTagged (suffix text : String) : Node :=
  match suffix with
  | "bool" =>
    if text == "true" then .boolean true
    else if text == "false" then .boolean false
    else .invalid
  | "int" =>
    match Numeral.int64 text.toList with
    | .ok number => .integer number
    | .error _ => .invalid
  | "float" => if isReal text then .real text else .invalid
  | "null" => if text == "~" || text == "null" then .null else .invalid
  | _ => .text text

/-- What a text stands for. Quoted texts and those of blocks are text whatever their tag. -/
def ofScalar (plain : Bool) (tag : Option (String × String)) (text : String) : Node :=
  if !plain then .text text
  else
    match tag with
    | none => ofPlain text
    | some (handle, suffix) => if handle == "!!" then ofTagged suffix text else .text text

def put (name : String) (node : Node) : List (String × Node) → List (String × Node)
  | [] => [(name, node)]
  | entry :: rest => if entry.1 = name then (name, node) :: rest else entry :: put name node rest

/-- Adds the entries of a mapping, whose names and values take turns. An invalid node is no
name, so what follows it takes its turn. Names that are no text are of no use. -/
def putAll (entries : List (String × Node)) : List Node → List (String × Node)
  | [] => entries
  | .invalid :: rest => putAll entries rest
  | .text name :: value :: rest => putAll (put name value entries) rest
  | _ :: _ :: rest => putAll entries rest
  | [_] => entries

/-- The mapping of names and values that take turns. -/
def ofTurns (nodes : List Node) : Node :=
  .mapping (putAll [] nodes)

end Node

end Coffer.Yaml
