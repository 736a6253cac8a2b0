import Coffer.Json.Reading

namespace Coffer.Json

/-! # What documents stand for

The text of strings and the values of numbers, and readers for the shapes in which data
is kept: lists, options, words, and records. A record is an object, or else an array of
its fields in order.
-/

/-- The number of four hexadecimal digits. -/
def hexNumber (a b c d : UInt8) : Nat :=
  [a, b, c, d].foldl (fun value digit => 16 * value + (hexDigit? digit).getD 0) 0

/-- The byte that a short escape stands for. -/
def shortEscape (mark : UInt8) : UInt8 :=
  if mark == 98 then 8
  else if mark == 102 then 12
  else if mark == 110 then 10
  else if mark == 114 then 13
  else if mark == 116 then 9
  else mark

/-- Whether a number is the first or the second half of a surrogate pair. -/
def isHighSurrogate (unit : Nat) : Bool := decide (0xD800 ≤ unit) && decide (unit < 0xDC00)

def isLowSurrogate (unit : Nat) : Bool := decide (0xDC00 ≤ unit) && decide (unit < 0xE000)

def characterBytes (code : Nat) : Bytes :=
  Bytes.ofText (String.ofList [Char.ofNat code])

/-- The bytes that the spelling of a string stands for. Surrogates have to come in pairs. -/
def unescaped? : Bytes → Option Bytes
  | 92 :: 117 :: a :: b :: c :: d :: 92 :: 117 :: e :: f :: g :: h :: rest =>
    let unit := hexNumber a b c d
    if isHighSurrogate unit then
      let other := hexNumber e f g h
      if isLowSurrogate other then
        (unescaped? rest).map fun more =>
          characterBytes (0x10000 + (unit - 0xD800) * 0x400 + (other - 0xDC00)) ++ more
      else none
    else if isLowSurrogate unit then none
    else
      (unescaped? (92 :: 117 :: e :: f :: g :: h :: rest)).map fun more =>
        characterBytes unit ++ more
  | 92 :: 117 :: a :: b :: c :: d :: rest =>
    let unit := hexNumber a b c d
    if isHighSurrogate unit || isLowSurrogate unit then none
    else (unescaped? rest).map fun more => characterBytes unit ++ more
  | 92 :: mark :: rest => (unescaped? rest).map fun more => shortEscape mark :: more
  | byte :: rest => (unescaped? rest).map fun more => byte :: more
  | [] => some []

/-- The text that the spelling of a string stands for. -/
def textOf? (spelling : Bytes) : Option String :=
  (unescaped? spelling).bind Bytes.text?

/-- A number as it is told apart: whole numbers of 64 bits with or without sign, and all
others as reals. -/
inductive Number where
  | natural (number : Nat)
  | negative (number : Int64)
  | real (number : Binary64)
  deriving DecidableEq, Repr

/-- Digits taken into a significand of 64 bits. Once one does not fit, all further ones
are only counted. -/
structure Significand where
  value : Nat
  kept : Nat
  dropped : Nat

def takeDigits (start : Nat) (digits : Bytes) : Significand :=
  match digits with
  | [] => ⟨start, 0, 0⟩
  | digit :: rest =>
    let value := 10 * start + (digit.toNat - 48)
    if value < Nat.pow 2 64 then
      let taken := takeDigits value rest
      { taken with kept := taken.kept + 1 }
    else ⟨start, 0, digits.length⟩

def powerOfTen (exponent : Nat) : Binary64 :=
  ({ negative := false, digits := 1, exponent := exponent } : Numeral.Decimal).toBinary64

/-- A significand scaled by a negative power of ten, in steps of at most 308 places. -/
def scaledDown (x : Binary64) : (steps : Nat) → Nat → Binary64
  | 0, _ => x
  | steps + 1, places =>
    if places ≤ 308 then x.div (powerOfTen places)
    else if x.equals .zero then x
    else scaledDown (x.div (powerOfTen 308)) steps (places - 308)

/-- A significand scaled by a power of ten, unless it grows past all reals. -/
def scaled? (x : Binary64) (exponent : Int) : Option Binary64 :=
  if exponent < 0 then some (scaledDown x 5 exponent.natAbs)
  else if exponent ≤ 308 then (some (x.mul (powerOfTen exponent.toNat))).filter Binary64.isFinite
  else if x.equals .zero then some x
  else none

/-- The exponent that a number ends with, and whether it is too large to be counted. -/
structure Exponent where
  size : Nat
  negative : Bool

def exponentOf (bytes : Bytes) : Exponent :=
  match bytes with
  | [] => ⟨0, false⟩
  | _ :: rest =>
    let signed := readSign rest
    ⟨(takeDigits 0 signed.2).value, signed.1 == [45]⟩

/-- The real of an unsigned number that is not whole or too large to be. -/
def realOf? (whole : Significand) (fraction exponent : Bytes) : Option Binary64 :=
  let taken := takeDigits whole.value fraction
  let start : Int := (whole.dropped : Int) - taken.kept
  let power := exponentOf exponent
  if Nat.pow 2 31 ≤ power.size then
    if taken.value ≠ 0 && !power.negative then none else some .zero
  else
    let shift : Int := if power.negative then -(power.size : Int) else power.size
    scaled? (.ofInt taken.value) (start + shift)

/-- The number that a spelling without sign stands for. -/
def unsignedOf? (negative : Bool) (spelling : Bytes) : Option Number := do
  let whole := takeDigits 0 (spelling.takeWhile isDigit)
  let rest := spelling.dropWhile isDigit
  let (fraction, exponent) ← readFraction rest
  if whole.dropped = 0 && fraction.isEmpty && exponent.isEmpty then
    if !negative then some (.natural whole.value)
    else if whole.value = 0 || Nat.pow 2 63 < whole.value then
      some (.real (Binary64.neg (.ofInt whole.value)))
    else some (.negative (Int64.ofInt (-(whole.value : Int))))
  else
    let real ← realOf? whole (fraction.drop 1) exponent
    some (.real (if negative then real.neg else real))

/-- The number that a spelling stands for, unless it is too large for all reals. -/
def numberOf? : Bytes → Option Number
  | 45 :: rest => unsignedOf? true rest
  | spelling => unsignedOf? false spelling

def text? : Json → Option String
  | .string spelling => textOf? spelling
  | _ => none

def boolean? : Json → Option Bool
  | .boolean truth => some truth
  | _ => none

/-- A whole number of 64 bits with a sign. -/
def int64? : Json → Option Int64
  | .number spelling =>
    match numberOf? spelling with
    | some (.natural found) => if found < Nat.pow 2 63 then some (Int64.ofInt found) else none
    | some (.negative found) => some found
    | _ => none
  | _ => none

/-- A whole number below a bound. -/
def natural? (bound : Nat) : Json → Option Nat
  | .number spelling =>
    match numberOf? spelling with
    | some (.natural found) => if found < bound then some found else none
    | _ => none
  | _ => none

def option? (decode : Json → Option α) : Json → Option (Option α)
  | .null => some none
  | document => (decode document).map some

def list? (decode : Json → Option α) : Json → Option (List α)
  | .array items => items.mapM decode
  | _ => none

/-- Entries by name, in the order in which they are written. -/
def entries? (decode : Json → Option α) : Json → Option (List (String × α))
  | .object members => members.mapM fun member => do
    let name ← textOf? member.1
    let content ← decode member.2
    some (name, content)
  | _ => none

/-- A word: a string, or the name of the only member of an object, which is null. -/
def word? : Json → Option String
  | .string spelling => textOf? spelling
  | .object [(name, .null)] => textOf? name
  | _ => none

structure Record where
  fields : List (String × Json)
  /-- Whether the fields were given by their order. -/
  positional : Bool

namespace Record

/-- Fields by name. A field given twice makes the record unreadable; unknown members are
passed over. -/
def collect (names : List String) : List (Bytes × Json) → Option (List (String × Json))
  | [] => some []
  | (spelling, content) :: rest => do
    let name ← textOf? spelling
    let fields ← collect names rest
    if names.contains name then
      if fields.any fun field => field.1 == name then none else some ((name, content) :: fields)
    else some fields

/-- The record that a document holds. -/
def ofJson? (names : List String) : Json → Option Record
  | .object members => (collect names members).map fun fields => ⟨fields, false⟩
  | .array items =>
    if items.length ≤ names.length then some ⟨names.zip items, true⟩ else none
  | _ => none

def required (record : Record) (name : String) (decode : Json → Option α) : Option α :=
  (record.fields.lookup name).bind decode

/-- The field of a name that may be null, or missing where fields go by name. -/
def optional (record : Record) (name : String) (decode : Json → Option α) :
    Option (Option α) :=
  match record.fields.lookup name with
  | some content => option? decode content
  | none => if record.positional then none else some none

/-- The field of a name, or something else where it is missing. -/
def orElse (record : Record) (name : String) (decode : Json → Option α) (missing : α) :
    Option α :=
  match record.fields.lookup name with
  | some content => decode content
  | none => some missing

end Record

end Coffer.Json
