import Coffer.Encoding.Bytes
import Coffer.Error

namespace Coffer.Hex

/-! # Hexadecimal text

Every byte is two digits, the high half first. Digits of both cases are read, and those
written are in lower case.
-/

def digit? (byte : UInt8) : Option Nat :=
  let code := byte.toNat
  if 48 ≤ code ∧ code ≤ 57 then some (code - 48)
  else if 97 ≤ code ∧ code ≤ 102 then some (code - 87)
  else if 65 ≤ code ∧ code ≤ 70 then some (code - 55)
  else none

def digitAt (position : Nat) (byte : UInt8) : Except Error Nat :=
  match digit? byte with
  | some value => .ok value
  | none => .error (.hexDigit (Char.ofNat byte.toNat) position)

/-- Reads pairs of digits from a position on. -/
def decodeFrom (position : Nat) : Bytes → Except Error Bytes
  | high :: low :: rest => do
    let upper ← digitAt position high
    let lower ← digitAt (position + 1) low
    let bytes ← decodeFrom (position + 2) rest
    return UInt8.ofNat (16 * upper + lower) :: bytes
  | _ => .ok []

/-- The bytes that hexadecimal text stands for. An odd number of bytes in it is reported
before any other fault. -/
def decode (text : String) : Except Error Bytes :=
  let digits := Bytes.ofText text
  if digits.length % 2 = 1 then .error .oddHex else decodeFrom 0 digits

/-- Hexadecimal digits of numbers below sixteen. -/
def digitCharacter (value : Nat) : Char :=
  Char.ofNat (if value < 10 then 48 + value else 87 + value)

def encode (bytes : Bytes) : String :=
  String.ofList (bytes.flatMap fun byte =>
    [digitCharacter (byte.toNat / 16), digitCharacter (byte.toNat % 16)])

end Coffer.Hex
