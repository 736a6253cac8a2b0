import Coffer.Cryptography.Words

namespace Coffer.Blake2b

/-! # The BLAKE2b hash -/

/-- The first words of every chain. -/
def initial : List UInt64 := [
  0x6a09e667f3bcc908, 0xbb67ae8584caa73b, 0x3c6ef372fe94f82b, 0xa54ff53a5f1d36f1,
  0x510e527fade682d1, 0x9b05688c2b3e6c1f, 0x1f83d9abfb41bd6b, 0x5be0cd19137e2179
]

/-- The order in which each round takes the words of the message. -/
def schedule : List (Array Nat) := [
  #[0, 1, 2, 3, 4, 5, 6, 7, 8, 9, 10, 11, 12, 13, 14, 15],
  #[14, 10, 4, 8, 9, 15, 13, 6, 1, 12, 0, 2, 11, 7, 5, 3],
  #[11, 8, 12, 0, 5, 2, 15, 13, 10, 14, 3, 6, 7, 1, 9, 4],
  #[7, 9, 3, 1, 13, 12, 11, 14, 2, 6, 5, 10, 4, 0, 15, 8],
  #[9, 0, 5, 7, 2, 4, 10, 15, 14, 1, 11, 12, 6, 8, 3, 13],
  #[2, 12, 6, 10, 0, 11, 8, 3, 4, 13, 7, 5, 15, 14, 1, 9],
  #[12, 5, 1, 15, 14, 13, 4, 10, 0, 7, 6, 3, 9, 2, 8, 11],
  #[13, 11, 7, 14, 12, 1, 3, 9, 5, 0, 15, 4, 8, 6, 2, 10],
  #[6, 15, 14, 9, 11, 3, 0, 8, 12, 2, 13, 7, 1, 4, 10, 5],
  #[10, 2, 8, 4, 7, 6, 1, 5, 15, 11, 9, 14, 3, 12, 13, 0],
  #[0, 1, 2, 3, 4, 5, 6, 7, 8, 9, 10, 11, 12, 13, 14, 15],
  #[14, 10, 4, 8, 9, 15, 13, 6, 1, 12, 0, 2, 11, 7, 5, 3]
]

/-- Mixes four words with two of the message. -/
def step (x y : UInt64) (q : Quad) : Quad :=
  let a := q.a + q.b + x
  let d := rotateRight (q.d ^^^ a) 32
  let c := q.c + d
  let b := rotateRight (q.b ^^^ c) 24
  let a := a + b + y
  let d := rotateRight (d ^^^ a) 16
  let c := c + d
  let b := rotateRight (b ^^^ c) 63
  ⟨a, b, c, d⟩

def round (message : Array UInt64) (state : Words) (order : Array Nat) : Words :=
  let word (place : Nat) := message.getD (order.getD place 0) 0
  state.mix fun index quad => step (word (2 * index)) (word (2 * index + 1)) quad

/-- Takes a block of the message into the chain, given how many bytes were taken with it
and whether it is the last one. -/
def compress (chain : List UInt64) (block : Bytes) (taken : Nat) (last : Bool) : List UInt64 :=
  let message := (Words.ofBytes block).toList.toArray
  let ending : UInt64 := if last then 0xffffffffffffffff else 0
  let marks : List UInt64 :=
    [0, 0, 0, 0, UInt64.ofNat taken, UInt64.ofNat (taken / Nat.pow 2 64), ending, 0]
  let start := Words.ofList (chain ++ List.zipWith (· ^^^ ·) initial marks)
  let mixed := (schedule.foldl (round message) start).toList
  List.zipWith (· ^^^ ·) chain (List.zipWith (· ^^^ ·) (mixed.take 8) (mixed.drop 8))

/-- Takes all blocks into the chain. -/
def compressAll (chain : List UInt64) (taken : Nat) : List Bytes → List UInt64
  | [] => compress chain [] taken true
  | [block] => compress chain block (taken + block.length) true
  | block :: rest =>
    compressAll (compress chain block (taken + block.length) false) (taken + block.length) rest

/-- The hash of a message, in the given number of bytes, at most 64. -/
def hash (length : Nat) (message : Bytes) : Bytes :=
  let marked := List.zipWith (· ^^^ ·) initial
    [0x01010000 ^^^ UInt64.ofNat length, 0, 0, 0, 0, 0, 0, 0]
  let chain := compressAll marked 0 (message.runs 128)
  (chain.flatMap fun word => Bytes.littleEndian 8 word.toNat).take length

end Coffer.Blake2b
