import Coffer.Encoding.Bytes

namespace Coffer.ChaCha20

/-! # The ChaCha20 stream cipher -/

/-- A word rotated towards its high end. -/
def rotateLeft (word amount : UInt32) : UInt32 :=
  (word <<< amount) ||| (word >>> (32 - amount))

/-- Sixteen words. -/
abbrev State := Array UInt32

/-- Adds one word to another one, and mixes the sum into a third one. -/
def mixStep (state : State) (target addend mixed : Nat) (amount : UInt32) : State :=
  let sum := state.getD target 0 + state.getD addend 0
  let turned := rotateLeft (state.getD mixed 0 ^^^ sum) amount
  (state.setIfInBounds target sum).setIfInBounds mixed turned

/-- Mixes four words. -/
def quarterRound (state : State) (places : Nat × Nat × Nat × Nat) : State :=
  let (a, b, c, d) := places
  let state := mixStep state a b d 16
  let state := mixStep state c d b 12
  let state := mixStep state a b d 8
  mixStep state c d b 7

/-- The columns of the square that the words form, and then its diagonals. -/
def places : List (Nat × Nat × Nat × Nat) := [
  (0, 4, 8, 12), (1, 5, 9, 13), (2, 6, 10, 14), (3, 7, 11, 15),
  (0, 5, 10, 15), (1, 6, 11, 12), (2, 7, 8, 13), (3, 4, 9, 14)
]

def doubleRound (state : State) : State :=
  places.foldl quarterRound state

def wordsOf (bytes : Bytes) : List UInt32 :=
  (bytes.runs 4).map fun run => UInt32.ofNat run.number

def start (key nonce : Bytes) (counter : Nat) : State :=
  ([0x61707865, 0x3320646e, 0x79622d32, 0x6b206574] ++ wordsOf key ++
    (UInt32.ofNat counter :: wordsOf nonce)).toArray

/-- Sixty-four bytes of the key stream. -/
def block (key nonce : Bytes) (counter : Nat) : Bytes :=
  let first := start key nonce counter
  let mixed := Nat.repeat doubleRound 10 first
  (List.zipWith (· + ·) first.toList mixed.toList).flatMap fun word =>
    Bytes.littleEndian 4 word.toNat

/-- Combines runs of 64 bytes with the key stream from a block on. -/
def applyFrom (key nonce : Bytes) (counter : Nat) : List Bytes → Bytes
  | [] => []
  | run :: rest =>
    List.zipWith (· ^^^ ·) run (block key nonce counter) ++
      applyFrom key nonce (counter + 1) rest

/-- Encrypts bytes, and decrypts them again. -/
def apply (key nonce : Bytes) (counter : Nat) (bytes : Bytes) : Bytes :=
  applyFrom key nonce counter (bytes.runs 64)

end Coffer.ChaCha20
