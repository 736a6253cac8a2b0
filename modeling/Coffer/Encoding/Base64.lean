import Coffer.Encoding.Bytes

namespace Coffer.Base64

/-! # Base64 text

The alphabet with plus and slash, without padding. Only the canonical text of a byte
sequence is read: bits beyond the last byte have to be zero.
-/

def value? (c : Char) : Option Nat :=
  let code := c.toNat
  if 65 ≤ code ∧ code ≤ 90 then some (code - 65)
  else if 97 ≤ code ∧ code ≤ 122 then some (code - 71)
  else if 48 ≤ code ∧ code ≤ 57 then some (code + 4)
  else if c = '+' then some 62
  else if c = '/' then some 63
  else none

/-- The character of a value below sixty-four. -/
def character (value : Nat) : Char :=
  if value < 26 then Char.ofNat (65 + value)
  else if value < 52 then Char.ofNat (71 + value)
  else if value < 62 then Char.ofNat (value - 4)
  else if value = 62 then '+'
  else '/'

/-- The bytes of a sequence of values of six bits each. -/
def bytes? : List Nat → Option Bytes
  | [] => some []
  | [_] => none
  | [a, b] => if b % 16 = 0 then some [UInt8.ofNat (4 * a + b / 16)] else none
  | [a, b, c] =>
    if c % 4 = 0 then
      some [UInt8.ofNat (4 * a + b / 16), UInt8.ofNat (16 * (b % 16) + c / 4)]
    else none
  | a :: b :: c :: d :: rest =>
    (bytes? rest).map fun more =>
      UInt8.ofNat (4 * a + b / 16) :: UInt8.ofNat (16 * (b % 16) + c / 4) ::
        UInt8.ofNat (64 * (c % 4) + d) :: more

def decode? (text : List Char) : Option Bytes :=
  (text.mapM value?).bind bytes?

/-- The values of six bits each of a byte sequence. -/
def values : Bytes → List Nat
  | [] => []
  | [x] => [x.toNat / 4, 16 * (x.toNat % 4)]
  | [x, y] => [x.toNat / 4, 16 * (x.toNat % 4) + y.toNat / 16, 4 * (y.toNat % 16)]
  | x :: y :: z :: rest =>
    x.toNat / 4 :: (16 * (x.toNat % 4) + y.toNat / 16) ::
      (4 * (y.toNat % 16) + z.toNat / 64) :: z.toNat % 64 :: values rest

def encode (bytes : Bytes) : String :=
  String.ofList ((values bytes).map character)

end Coffer.Base64
