import Coffer.Cryptography.Blake2b

namespace Coffer.Argon2

/-! # The Argon2 password hash

The memory is a matrix of blocks: one row for each lane, cut into four slices. Passes
fill it slice by slice, each block from the one before it and from another one that is
chosen by data of the one before, or by a counter alone.
-/

inductive Variant where
  | dependent | independent | hybrid
  deriving DecidableEq, Repr

def Variant.number : Variant → Nat
  | .dependent => 0
  | .independent => 1
  | .hybrid => 2

structure Parameters where
  variant : Variant
  /-- Later versions mix the blocks of later passes into the former ones. -/
  version : Nat
  /-- The memory to use, in blocks. -/
  memory : Nat
  passes : Nat
  lanes : Nat
  /-- The length of the hash in bytes. -/
  length : Nat
  associated : Bytes

/-- The number of blocks in a slice of a lane. -/
def Parameters.segment (parameters : Parameters) : Nat :=
  parameters.memory / (4 * parameters.lanes)

def Parameters.laneLength (parameters : Parameters) : Nat :=
  4 * parameters.segment

/-- A block of memory: eight rows of sixteen words. -/
structure Block where
  r0 : Words
  r1 : Words
  r2 : Words
  r3 : Words
  r4 : Words
  r5 : Words
  r6 : Words
  r7 : Words
  deriving DecidableEq, Inhabited

/-- Addition with twice the product of the low halves. -/
@[inline] def blend (x y : UInt64) : UInt64 :=
  x + y + 2 * (x &&& 0xffffffff) * (y &&& 0xffffffff)

/-- Mixes four words. -/
@[inline] def step (q : Quad) : Quad :=
  let a := blend q.a q.b
  let d := rotateRight (q.d ^^^ a) 32
  let c := blend q.c d
  let b := rotateRight (q.b ^^^ c) 24
  let a := blend a b
  let d := rotateRight (d ^^^ a) 16
  let c := blend c d
  let b := rotateRight (b ^^^ c) 63
  ⟨a, b, c, d⟩

def mixRow (row : Words) : Words :=
  row.mix fun _ quad => step quad

namespace Block

def map (change : Words → Words) (b : Block) : Block :=
  ⟨change b.r0, change b.r1, change b.r2, change b.r3,
    change b.r4, change b.r5, change b.r6, change b.r7⟩

/-- The exclusive or of blocks, each word with its counterpart. -/
def xor (x y : Block) : Block :=
  ⟨x.r0.xor y.r0, x.r1.xor y.r1, x.r2.xor y.r2, x.r3.xor y.r3,
    x.r4.xor y.r4, x.r5.xor y.r5, x.r6.xor y.r6, x.r7.xor y.r7⟩

/-- The block with the pairs of words that stand in one column put into one row. -/
def transpose (b : Block) : Block :=
  ⟨⟨b.r0.w0, b.r0.w1, b.r1.w0, b.r1.w1, b.r2.w0, b.r2.w1, b.r3.w0, b.r3.w1,
      b.r4.w0, b.r4.w1, b.r5.w0, b.r5.w1, b.r6.w0, b.r6.w1, b.r7.w0, b.r7.w1⟩,
    ⟨b.r0.w2, b.r0.w3, b.r1.w2, b.r1.w3, b.r2.w2, b.r2.w3, b.r3.w2, b.r3.w3,
      b.r4.w2, b.r4.w3, b.r5.w2, b.r5.w3, b.r6.w2, b.r6.w3, b.r7.w2, b.r7.w3⟩,
    ⟨b.r0.w4, b.r0.w5, b.r1.w4, b.r1.w5, b.r2.w4, b.r2.w5, b.r3.w4, b.r3.w5,
      b.r4.w4, b.r4.w5, b.r5.w4, b.r5.w5, b.r6.w4, b.r6.w5, b.r7.w4, b.r7.w5⟩,
    ⟨b.r0.w6, b.r0.w7, b.r1.w6, b.r1.w7, b.r2.w6, b.r2.w7, b.r3.w6, b.r3.w7,
      b.r4.w6, b.r4.w7, b.r5.w6, b.r5.w7, b.r6.w6, b.r6.w7, b.r7.w6, b.r7.w7⟩,
    ⟨b.r0.w8, b.r0.w9, b.r1.w8, b.r1.w9, b.r2.w8, b.r2.w9, b.r3.w8, b.r3.w9,
      b.r4.w8, b.r4.w9, b.r5.w8, b.r5.w9, b.r6.w8, b.r6.w9, b.r7.w8, b.r7.w9⟩,
    ⟨b.r0.w10, b.r0.w11, b.r1.w10, b.r1.w11, b.r2.w10, b.r2.w11, b.r3.w10, b.r3.w11,
      b.r4.w10, b.r4.w11, b.r5.w10, b.r5.w11, b.r6.w10, b.r6.w11, b.r7.w10, b.r7.w11⟩,
    ⟨b.r0.w12, b.r0.w13, b.r1.w12, b.r1.w13, b.r2.w12, b.r2.w13, b.r3.w12, b.r3.w13,
      b.r4.w12, b.r4.w13, b.r5.w12, b.r5.w13, b.r6.w12, b.r6.w13, b.r7.w12, b.r7.w13⟩,
    ⟨b.r0.w14, b.r0.w15, b.r1.w14, b.r1.w15, b.r2.w14, b.r2.w15, b.r3.w14, b.r3.w15,
      b.r4.w14, b.r4.w15, b.r5.w14, b.r5.w15, b.r6.w14, b.r6.w15, b.r7.w14, b.r7.w15⟩⟩

/-- Mixes the rows of a block, and then its columns. -/
def mix (b : Block) : Block :=
  ((b.map mixRow).transpose.map mixRow).transpose

/-- Combines two blocks into one. -/
def compress (x y : Block) : Block :=
  let joined := x.xor y
  joined.mix.xor joined

def rows (b : Block) : List Words :=
  [b.r0, b.r1, b.r2, b.r3, b.r4, b.r5, b.r6, b.r7]

def toBytes (b : Block) : Bytes :=
  b.rows.flatMap Words.toBytes

def ofRows (rows : List Words) : Block :=
  match rows ++ List.replicate 8 default with
  | r0 :: r1 :: r2 :: r3 :: r4 :: r5 :: r6 :: r7 :: _ => ⟨r0, r1, r2, r3, r4, r5, r6, r7⟩
  | _ => default

def ofBytes (bytes : Bytes) : Block :=
  ofRows ((bytes.runs 128).map Words.ofBytes)

end Block

/-- Hashes chained one after another, each giving half of its bytes. -/
def chained : (remaining : Nat) → (length : Nat) → Bytes → Bytes
  | 0, length, former => Blake2b.hash length former
  | remaining + 1, length, former =>
    let next := Blake2b.hash 64 former
    next.take 32 ++ chained remaining length next

def longHash (length : Nat) (message : Bytes) : Bytes :=
  let marked := Bytes.littleEndian 4 length ++ message
  if length ≤ 64 then Blake2b.hash length marked
  else
    let whole := (length + 31) / 32 - 2
    chained whole (length - 32 * whole) marked

def counted (bytes : Bytes) : Bytes :=
  Bytes.littleEndian 4 bytes.length ++ bytes

/-- The hash of everything that the result depends on. No secret is used. -/
def seed (parameters : Parameters) (password salt : Bytes) : Bytes :=
  let numbers := [parameters.lanes, parameters.length, parameters.memory, parameters.passes,
    parameters.version, parameters.variant.number]
  Blake2b.hash 64 (numbers.flatMap (Bytes.littleEndian 4) ++
    (counted password ++ (counted salt ++ (counted [] ++ counted parameters.associated))))

/-- A place in the order of filling. -/
structure Place where
  pass : Nat
  lane : Nat
  slice : Nat
  /-- The index within the slice of the lane. -/
  index : Nat

def firstBlocks (seed : Bytes) (lane : Nat) : List Block :=
  [0, 1].map fun column =>
    .ofBytes (longHash 1024
      (seed ++ (Bytes.littleEndian 4 column ++ Bytes.littleEndian 4 lane)))

/-- The memory with the first two blocks of each lane. -/
def initialMemory (parameters : Parameters) (seed : Bytes) : Array Block :=
  let rest : List Block := List.replicate (parameters.laneLength - 2) default
  ((List.range parameters.lanes).flatMap fun lane => firstBlocks seed lane ++ rest).toArray

/-- The words that choose blocks without regard to data, 128 for each counter. -/
def addressBlock (parameters : Parameters) (place : Place) (counter : Nat) : Block :=
  let numbers := [place.pass, place.lane, place.slice,
    parameters.laneLength * parameters.lanes, parameters.passes, parameters.variant.number,
    counter]
  let input := Block.ofRows [Words.ofList (numbers.map UInt64.ofNat)]
  Block.compress default (Block.compress default input)

/-- All words that choose blocks of a segment without regard to data. -/
def addresses (parameters : Parameters) (place : Place) : Array UInt64 :=
  let counters := List.range ((parameters.segment + 127) / 128)
  (counters.flatMap fun counter =>
    (addressBlock parameters place (counter + 1)).rows.flatMap Words.toList).toArray

/-- Whether blocks of a segment are chosen without regard to data. -/
def isIndependent (parameters : Parameters) (place : Place) : Bool :=
  match parameters.variant with
  | .dependent => false
  | .independent => true
  | .hybrid => place.pass == 0 && decide (place.slice < 2)

/-- The number of blocks that may be chosen. -/
def referenceArea (parameters : Parameters) (place : Place) (sameLane : Bool) : Nat :=
  let finished :=
    if place.pass = 0 then place.slice * parameters.segment
    else parameters.laneLength - parameters.segment
  if sameLane then finished + place.index - 1
  else if place.index = 0 then finished - 1
  else finished

/-- The position of the block that a word chooses. -/
def reference (parameters : Parameters) (place : Place) (word : UInt64) : Nat :=
  let chosen := (word >>> 32).toNat % parameters.lanes
  let lane := if place.pass = 0 ∧ place.slice = 0 then place.lane else chosen
  let area := referenceArea parameters place (lane == place.lane)
  let low := (word &&& 0xffffffff).toNat
  let back := area * (low * low / Nat.pow 2 32) / Nat.pow 2 32
  let start :=
    if place.pass = 0 then 0 else (place.slice + 1) * parameters.segment
  lane * parameters.laneLength + (start + (area - 1 - back)) % parameters.laneLength

def fillBlock (parameters : Parameters) (words : Array UInt64) (memory : Array Block)
    (place : Place) : Array Block :=
  let column := place.slice * parameters.segment + place.index
  let lane := place.lane * parameters.laneLength
  let before := if column = 0 then parameters.laneLength - 1 else column - 1
  let previous := memory.getD (lane + before) default
  let word :=
    if isIndependent parameters place then words.getD place.index 0 else previous.r0.w0
  let other := memory.getD (reference parameters place word) default
  let filled := previous.compress other
  let position := lane + column
  if place.pass = 0 || parameters.version < 19 then memory.setIfInBounds position filled
  else memory.setIfInBounds position (filled.xor (memory.getD position default))

/-- Fills the blocks of a slice of a lane. -/
def fillSegment (parameters : Parameters) (memory : Array Block) (place : Place) :
    Array Block :=
  let words := if isIndependent parameters place then addresses parameters place else #[]
  let ready := if place.pass = 0 ∧ place.slice = 0 then 2 else 0
  ((List.range parameters.segment).drop ready).foldl
    (fun memory index => fillBlock parameters words memory { place with index }) memory

/-- The segments in the order in which they are filled. -/
def segments (parameters : Parameters) : List Place :=
  (List.range parameters.passes).flatMap fun pass =>
    (List.range 4).flatMap fun slice =>
      (List.range parameters.lanes).map fun lane => { pass, lane, slice, index := 0 }

/-- The exclusive or of the last blocks of all lanes. -/
def lastColumn (parameters : Parameters) (memory : Array Block) : Block :=
  (List.range parameters.lanes).foldl
    (fun block lane =>
      block.xor (memory.getD ((lane + 1) * parameters.laneLength - 1) default))
    default

def hash (parameters : Parameters) (password salt : Bytes) : Bytes :=
  let start := initialMemory parameters (seed parameters password salt)
  let filled := (segments parameters).foldl (fillSegment parameters) start
  longHash parameters.length (lastColumn parameters filled).toBytes

end Coffer.Argon2
