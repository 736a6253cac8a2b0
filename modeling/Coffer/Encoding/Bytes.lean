namespace Coffer

/-! # Bytes -/

abbrev Bytes := List UInt8

namespace Bytes

def ofText (text : String) : Bytes :=
  text.toUTF8.toList

/-- The text that bytes encode in UTF-8, if they do. -/
def text? (bytes : Bytes) : Option String :=
  String.fromUTF8? ⟨bytes.toArray⟩

/-- A number in the given count of bytes, the lowest one first. -/
def littleEndian : (width : Nat) → Nat → Bytes
  | 0, _ => []
  | width + 1, number => UInt8.ofNat (number % 256) :: littleEndian width (number / 256)

/-- The number that bytes stand for, the lowest one first. -/
def number : Bytes → Nat
  | [] => 0
  | byte :: rest => byte.toNat + 256 * number rest

/-- Bytes in runs of the given length; the last one may be shorter. -/
def runs (length : Nat) (bytes : Bytes) : List Bytes :=
  go bytes.length bytes
where
  go : Nat → Bytes → List Bytes
    | _, [] => []
    | 0, _ => []
    | fuel + 1, rest => rest.take length :: go fuel (rest.drop length)

/-- Bytes filled up with zeros to a length. -/
def padded (length : Nat) (bytes : Bytes) : Bytes :=
  bytes ++ List.replicate (length - bytes.length) 0

end Bytes

end Coffer
