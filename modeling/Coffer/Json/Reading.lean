import Coffer.Json.Basic

namespace Coffer.Json

/-! # Reading JSON documents

The grammar of documents, over bytes. Every reader takes what it reads off the head of
the bytes and gives the rest.
-/

/-- Whether a byte is blank between the parts of a document. -/
def isBlank (byte : UInt8) : Bool :=
  byte == 32 || byte == 9 || byte == 10 || byte == 13

def skipBlanks (bytes : Bytes) : Bytes :=
  bytes.dropWhile isBlank

def isDigit (byte : UInt8) : Bool :=
  decide (48 ≤ byte) && decide (byte ≤ 57)

/-- The value of a hexadecimal digit. -/
def hexDigit? (byte : UInt8) : Option Nat :=
  let code := byte.toNat
  if 48 ≤ code ∧ code ≤ 57 then some (code - 48)
  else if 97 ≤ code ∧ code ≤ 102 then some (code - 87)
  else if 65 ≤ code ∧ code ≤ 70 then some (code - 55)
  else none

/-- Whether a byte may follow a backslash on its own. -/
def isShortEscape (byte : UInt8) : Bool :=
  byte == 34 || byte == 92 || byte == 47 || byte == 98 || byte == 102 || byte == 110 ||
    byte == 114 || byte == 116

/-- The spelling of a string after its opening quote, and what follows the closing one. -/
def readString : Bytes → Option (Bytes × Bytes)
  | [] => none
  | 34 :: rest => some ([], rest)
  | 92 :: 117 :: a :: b :: c :: d :: rest =>
    if [a, b, c, d].all fun digit => (hexDigit? digit).isSome then
      (readString rest).map fun found => (92 :: 117 :: a :: b :: c :: d :: found.1, found.2)
    else none
  | 92 :: mark :: rest =>
    if isShortEscape mark then
      (readString rest).map fun found => (92 :: mark :: found.1, found.2)
    else none
  | byte :: rest =>
    if byte < 32 || byte == 92 then none
    else (readString rest).map fun found => (byte :: found.1, found.2)

def readDigits (bytes : Bytes) : Option (Bytes × Bytes) :=
  let digits := bytes.takeWhile isDigit
  if digits.isEmpty then none else some (digits, bytes.dropWhile isDigit)

/-- The whole part of a number. It starts with a zero only if it is zero. -/
def readWhole (bytes : Bytes) : Option (Bytes × Bytes) :=
  match readDigits bytes with
  | some (48 :: _ :: _, _) => none
  | found => found

def readFraction : Bytes → Option (Bytes × Bytes)
  | 46 :: rest => (readDigits rest).map fun found => (46 :: found.1, found.2)
  | bytes => some ([], bytes)

/-- The sign at the head of an exponent, if there is one. -/
def readSign : Bytes → Bytes × Bytes
  | 43 :: rest => ([43], rest)
  | 45 :: rest => ([45], rest)
  | bytes => ([], bytes)

def readExponent : Bytes → Option (Bytes × Bytes)
  | mark :: rest =>
    if mark == 101 || mark == 69 then
      let signed := readSign rest
      (readDigits signed.2).map fun found => (mark :: (signed.1 ++ found.1), found.2)
    else some ([], mark :: rest)
  | [] => some ([], [])

def readUnsigned (bytes : Bytes) : Option (Bytes × Bytes) := do
  let (whole, rest) ← readWhole bytes
  let (fraction, rest) ← readFraction rest
  let (exponent, rest) ← readExponent rest
  some (whole ++ (fraction ++ exponent), rest)

def readNumber : Bytes → Option (Bytes × Bytes)
  | 45 :: rest => (readUnsigned rest).map fun found => (45 :: found.1, found.2)
  | bytes => readUnsigned bytes

def afterWord? (word bytes : Bytes) : Option Bytes :=
  if word.isPrefixOf bytes then some (bytes.drop word.length) else none

mutual
/-- Reads a document. The fuel bounds how deep the reader goes; each step takes a byte. -/
def readValue : (fuel : Nat) → Bytes → Option (Json × Bytes)
  | 0, _ => none
  | fuel + 1, bytes =>
    match skipBlanks bytes with
    | 110 :: rest => (afterWord? (ascii "ull") rest).map fun rest => (.null, rest)
    | 116 :: rest => (afterWord? (ascii "rue") rest).map fun rest => (.boolean true, rest)
    | 102 :: rest => (afterWord? (ascii "alse") rest).map fun rest => (.boolean false, rest)
    | 34 :: rest => (readString rest).map fun found => (.string found.1, found.2)
    | 91 :: rest =>
      match skipBlanks rest with
      | 93 :: rest => some (.array [], rest)
      | rest => (readItems fuel rest).map fun found => (.array found.1, found.2)
    | 123 :: rest =>
      match skipBlanks rest with
      | 125 :: rest => some (.object [], rest)
      | rest => (readMembers fuel rest).map fun found => (.object found.1, found.2)
    | rest => (readNumber rest).map fun found => (.number found.1, found.2)

/-- Reads the items of an array up to its end; there is at least one. -/
def readItems : (fuel : Nat) → Bytes → Option (List Json × Bytes)
  | 0, _ => none
  | fuel + 1, bytes => do
    let (item, rest) ← readValue fuel bytes
    match skipBlanks rest with
    | 44 :: rest =>
      let (items, rest) ← readItems fuel rest
      some (item :: items, rest)
    | 93 :: rest => some ([item], rest)
    | _ => none

/-- Reads the members of an object up to its end; there is at least one. -/
def readMembers : (fuel : Nat) → Bytes → Option (List (Bytes × Json) × Bytes)
  | 0, _ => none
  | fuel + 1, bytes =>
    match skipBlanks bytes with
    | 34 :: rest => do
      let (name, rest) ← readString rest
      match skipBlanks rest with
      | 58 :: rest =>
        let (content, rest) ← readValue fuel rest
        match skipBlanks rest with
        | 44 :: rest =>
          let (members, rest) ← readMembers fuel rest
          some ((name, content) :: members, rest)
        | 125 :: rest => some ([(name, content)], rest)
        | _ => none
      | _ => none
    | _ => none
end

/-- Reads a document that the bytes hold as a whole. -/
def ofBytes? (bytes : Bytes) : Option Json := do
  let (document, rest) ← readValue (2 * bytes.length + 2) bytes
  if (skipBlanks rest).isEmpty then some document else none

end Coffer.Json
