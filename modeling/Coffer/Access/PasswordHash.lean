import Coffer.Cryptography.Argon2
import Coffer.Encoding.Base64
import Coffer.Number.RealText
import Coffer.Text.Ranges

namespace Coffer

/-! # Password hashes as text

A password hash is kept as fields set off by dollar signs: the algorithm, its version,
its parameters, the salt and the hash, the last two in Base64.
-/

structure PasswordHash where
  parameters : Argon2.Parameters
  salt : Bytes
  hash : Bytes

namespace PasswordHash

def fields (separator : Char) : List Char → List (List Char)
  | [] => [[]]
  | c :: rest =>
    if c = separator then [] :: fields separator rest
    else
      match fields separator rest with
      | [] => [[c]]
      | first :: others => (c :: first) :: others

/-- Whether the character may stand in the value of a parameter or in a salt. -/
def isValueCharacter (c : Char) : Bool :=
  Text.isDigit c || Text.isLatinLetter c || c == '/' || c == '+' || c == '.' || c == '-'

def isValue (text : List Char) : Bool :=
  decide (text.length ≤ 64) && text.all isValueCharacter

/-- Whether the text may name an algorithm or a parameter. -/
def isName (text : List Char) : Bool :=
  decide (1 ≤ text.length) && decide (text.length ≤ 32) &&
    text.all fun c => Text.isDigit c || (Text.isLatinLetter c && c.isLower) || c == '-'

/-- A number of 32 bits without leading zeros. -/
def number? (text : List Char) : Option Nat :=
  let value := text.foldl (fun value digit => 10 * value + (digit.toNat - 48)) 0
  if text.isEmpty || !text.all Text.isDigit || (text.head? == some '0' && text.length != 1) ||
      decide (Nat.pow 2 32 ≤ value) || !isValue text then none
  else some value

def bytesUpTo? (most : Nat) (text : List Char) : Option Bytes :=
  (Base64.decode? text).filter fun bytes => decide (bytes.length ≤ most)

def variant? (name : String) : Option Argon2.Variant :=
  match name with
  | "argon2d" => some .dependent
  | "argon2i" => some .independent
  | "argon2id" => some .hybrid
  | _ => none

def variantName : Argon2.Variant → String
  | .dependent => "argon2d"
  | .independent => "argon2i"
  | .hybrid => "argon2id"

/-- The parameters of new hashes, which are also those that a text does not give. -/
def standard : Argon2.Parameters :=
  { variant := .hybrid, version := 19, memory := 19456, passes := 2, lanes := 1, length := 32
    associated := [] }

/-- Takes one named parameter over. A key identifier has to be readable, but plays no part. -/
def setParameter? (parameters : Argon2.Parameters) (field : List Char) :
    Option Argon2.Parameters :=
  match fields '=' field with
  | [name, value] =>
    if !isName name || !isValue value then none
    else
      match String.ofList name with
      | "m" => (number? value).map fun memory => { parameters with memory }
      | "t" => (number? value).map fun passes => { parameters with passes }
      | "p" => (number? value).map fun lanes => { parameters with lanes }
      | "keyid" => (bytesUpTo? 8 value).map fun _ => parameters
      | "data" => (bytesUpTo? 32 value).map fun associated => { parameters with associated }
      | _ => none
  | _ => none

/-- Takes a list of named parameters over. -/
def setParameters? (parameters : Argon2.Parameters) (field : List Char) :
    Option Argon2.Parameters :=
  if (String.ofList field).utf8ByteSize ≤ 127 then
    (fields ',' field).foldlM setParameter? parameters
  else none

def isUsable (parameters : Argon2.Parameters) : Bool :=
  decide (8 ≤ parameters.memory) && decide (8 * parameters.lanes ≤ parameters.memory) &&
    decide (1 ≤ parameters.passes) && decide (1 ≤ parameters.lanes) &&
    decide (parameters.lanes < Nat.pow 2 24)

def salt? (field : List Char) : Option Bytes :=
  if decide (4 ≤ field.length) && isValue field then
    (Base64.decode? field).filter fun salt => decide (8 ≤ salt.length)
  else none

def hash? (field : List Char) : Option Bytes :=
  (Base64.decode? field).filter fun hash =>
    decide (10 ≤ hash.length) && decide (hash.length ≤ 64)

/-- Splits the version off the fields behind the algorithm. -/
def version? : List (List Char) → Option (Nat × List (List Char))
  | ('v' :: '=' :: version) :: rest =>
    if version.contains ',' then some (19, ('v' :: '=' :: version) :: rest)
    else
      match number? version with
      | some 16 => some (16, rest)
      | some 19 => some (19, rest)
      | _ => none
  | rest => some (19, rest)

/-- Splits the parameters off the fields behind the version. -/
def parameters? (standard : Argon2.Parameters) : List (List Char) →
    Option (Argon2.Parameters × List (List Char))
  | field :: rest =>
    if field.contains '=' then
      (setParameters? standard field).map fun parameters => (parameters, rest)
    else some (standard, field :: rest)
  | [] => some (standard, [])

/-- Reads a password hash that has both a salt and a hash. -/
def ofText? (text : String) : Option PasswordHash :=
  match fields '$' text.toList with
  | [] :: name :: rest => do
    let variant ← variant? (String.ofList name)
    let (version, rest) ← version? rest
    let (parameters, rest) ← parameters? { standard with variant, version } rest
    match rest with
    | [saltField, hashField] =>
      let salt ← salt? saltField
      let hash ← hash? hashField
      if isUsable parameters then
        some { parameters := { parameters with length := hash.length }, salt, hash }
      else none
    | _ => none
  | _ => none

def toText (stored : PasswordHash) : String :=
  let p := stored.parameters
  "$".intercalate [
    "", variantName p.variant, s!"v={integerText p.version}",
    s!"m={integerText p.memory},t={integerText p.passes},p={integerText p.lanes}",
    Base64.encode stored.salt, Base64.encode stored.hash]

def create (password : String) (salt : Bytes) : PasswordHash :=
  { parameters := standard, salt, hash := Argon2.hash standard (Bytes.ofText password) salt }

def accepts (stored : PasswordHash) (password : String) : Bool :=
  Argon2.hash stored.parameters (Bytes.ofText password) stored.salt == stored.hash

end PasswordHash

end Coffer
