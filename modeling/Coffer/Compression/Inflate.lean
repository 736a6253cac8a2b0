import Coffer.Encoding.Bytes

namespace Coffer.Inflate

/-! # Inflating

The DEFLATE format: blocks of literal bytes and of copies of what came before, under
prefix codes. Codes are given by the lengths of their words alone; the words of one
length follow each other in the order of their symbols.
-/

/-- Bits in the order in which they are read. -/
abbrev Bits := List Bool

/-- The bits of a byte, the lowest one first. -/
def bitsOfByte (byte : UInt8) : Bits :=
  (List.range 8).map fun place => byte.toNat.testBit place

def bitsOf (bytes : Bytes) : Bits :=
  bytes.flatMap bitsOfByte

def readNumber : (width : Nat) → Bits → Option (Nat × Bits)
  | 0, bits => some (0, bits)
  | _ + 1, [] => none
  | width + 1, bit :: rest =>
    (readNumber width rest).map fun found => (bit.toNat + 2 * found.1, found.2)

/-- The bits from the next byte on. The bits to be read end with a byte. -/
def aligned (bits : Bits) : Bits :=
  bits.drop (bits.length % 8)

/-- Bytes made of bits, eight for each. -/
def bytesOf (bits : Bits) : Bytes :=
  go bits.length bits
where
  go : Nat → Bits → Bytes
    | 0, _ => []
    | fuel + 1, bits =>
      match readNumber 8 bits with
      | some (byte, rest) => UInt8.ofNat byte :: go fuel rest
      | none => []

/-- A prefix code: how many words there are of each length from one on, and the symbols in
the order of their words. -/
structure Code where
  counts : List Nat
  symbols : Array Nat

namespace Code

def symbolsOf (lengths : List Nat) (length : Nat) : List Nat :=
  (lengths.zip (List.range lengths.length)).filterMap fun entry =>
    if entry.1 = length then some entry.2 else none

/-- The room that is left for words after those of the given lengths, in words of the
greatest length. -/
def room (counts : List Nat) : Int :=
  counts.foldl (fun (room : Int) (count : Nat) => 2 * room - count) 1

/-- The code whose words have given lengths; symbols of length zero have none. The words
have to use up all room, unless there are none or a single one of one bit. -/
def ofLengths? (lengths : List Nat) : Option Code :=
  let groups := (List.range 15).map fun length => symbolsOf lengths (length + 1)
  let counts := groups.map List.length
  let symbols := groups.flatten
  if room counts = 0 || symbols.isEmpty || (symbols.length = 1 && counts.head? = some 1) then
    some ⟨counts, symbols.toArray⟩
  else none

/-- Reads the word of a symbol: a bit more for each length, until the number it makes is
that of a word. -/
def readFrom (symbols : Array Nat) : (counts : List Nat) → (word first index : Nat) → Bits →
    Option (Nat × Bits)
  | [], _, _, _, _ => none
  | _ :: _, _, _, _, [] => none
  | count :: counts, word, first, index, bit :: rest =>
    let word := word + bit.toNat
    if word < first + count then
      (symbols[index + (word - first)]?).map fun symbol => (symbol, rest)
    else readFrom symbols counts (2 * word) (2 * (first + count)) (index + count) rest

def read (code : Code) (bits : Bits) : Option (Nat × Bits) :=
  readFrom code.symbols code.counts 0 0 0 bits

end Code

/-- The codes of a block: for literals and lengths, and for distances. -/
structure Codes where
  literals : Code
  distances : Code

/-- The codes of blocks that bring none of their own. -/
def fixedCodes? : Option Codes := do
  let lengths := List.replicate 144 8 ++ List.replicate 112 9 ++ List.replicate 24 7 ++
    List.replicate 8 8
  let literals ← Code.ofLengths? lengths
  let distances ← Code.ofLengths? (List.replicate 32 5)
  some { literals, distances }

/-- The order in which the lengths of the code for lengths are given. -/
def lengthOrder : List Nat :=
  [16, 17, 18, 0, 8, 7, 9, 6, 10, 5, 11, 4, 12, 3, 13, 2, 14, 1, 15]

def readShortNumbers : (count : Nat) → Bits → Option (List Nat × Bits)
  | 0, bits => some ([], bits)
  | count + 1, bits => do
    let (number, rest) ← readNumber 3 bits
    let (numbers, rest) ← readShortNumbers count rest
    some (number :: numbers, rest)

/-- Reads the lengths of words, under a code of their own: a length, or a run of the one
before, or of zeros. Each step adds a length, so their number bounds the steps. -/
def readLengths (code : Code) (total : Nat) : (fuel : Nat) → (found : List Nat) → Bits →
    Option (List Nat × Bits)
  | 0, found, bits => if found.length = total then some (found.reverse, bits) else none
  | fuel + 1, found, bits =>
    if total ≤ found.length then
      if found.length = total then some (found.reverse, bits) else none
    else do
      let (symbol, rest) ← code.read bits
      match symbol with
      | 16 =>
        let last ← found.head?
        let (more, rest) ← readNumber 2 rest
        readLengths code total fuel (List.replicate (3 + more) last ++ found) rest
      | 17 =>
        let (more, rest) ← readNumber 3 rest
        readLengths code total fuel (List.replicate (3 + more) 0 ++ found) rest
      | 18 =>
        let (more, rest) ← readNumber 7 rest
        readLengths code total fuel (List.replicate (11 + more) 0 ++ found) rest
      | length => readLengths code total fuel (length :: found) rest

/-- Reads the codes that a block brings. -/
def readCodes (bits : Bits) : Option (Codes × Bits) := do
  let (literalCount, rest) ← readNumber 5 bits
  let (distanceCount, rest) ← readNumber 5 rest
  let (orderCount, rest) ← readNumber 4 rest
  if 29 < literalCount ∨ 29 < distanceCount then none
  let (short, rest) ← readShortNumbers (orderCount + 4) rest
  let given := lengthOrder.zip short
  let lengthCode ← Code.ofLengths?
    ((List.range 19).map fun symbol => (given.lookup symbol).getD 0)
  let total := literalCount + 257 + (distanceCount + 1)
  let (lengths, rest) ← readLengths lengthCode total total [] rest
  let literals ← Code.ofLengths? (lengths.take (literalCount + 257))
  let distances ← Code.ofLengths? (lengths.drop (literalCount + 257))
  some ({ literals, distances }, rest)

/-- The least length of each length symbol, and the number of bits that add to it. -/
def lengthBases : Array (Nat × Nat) := #[
  (3, 0), (4, 0), (5, 0), (6, 0), (7, 0), (8, 0), (9, 0), (10, 0), (11, 1), (13, 1), (15, 1),
  (17, 1), (19, 2), (23, 2), (27, 2), (31, 2), (35, 3), (43, 3), (51, 3), (59, 3), (67, 4),
  (83, 4), (99, 4), (115, 4), (131, 5), (163, 5), (195, 5), (227, 5), (258, 0)
]

/-- The least distance of each distance symbol, and the number of bits that add to it. -/
def distanceBases : Array (Nat × Nat) := #[
  (1, 0), (2, 0), (3, 0), (4, 0), (5, 1), (7, 1), (9, 2), (13, 2), (17, 3), (25, 3), (33, 4),
  (49, 4), (65, 5), (97, 5), (129, 6), (193, 6), (257, 7), (385, 7), (513, 8), (769, 8),
  (1025, 9), (1537, 9), (2049, 10), (3073, 10), (4097, 11), (6145, 11), (8193, 12),
  (12289, 12), (16385, 13), (24577, 13)
]

/-- Reads what a symbol of one of the tables stands for. -/
def readBased (table : Array (Nat × Nat)) (symbol : Nat) (bits : Bits) :
    Option (Nat × Bits) := do
  let (base, width) ← table[symbol]?
  let (more, rest) ← readNumber width bits
  some (base + more, rest)

/-- The byte at a distance back from the end. What was read is taken to follow zeros. -/
def byteBack (distance : Nat) (output : Array UInt8) : UInt8 :=
  if distance ≤ output.size then output.getD (output.size - distance) 0 else 0

/-- Copies bytes from a distance back, which may reach into the copy itself. -/
def copyBack (distance : Nat) : (length : Nat) → Array UInt8 → Array UInt8
  | 0, output => output
  | length + 1, output =>
    copyBack distance length (output.push (byteBack distance output))

/-- What has been read so far. -/
structure Progress where
  output : Array UInt8
  bits : Bits

def readCopy (codes : Codes) (symbol : Nat) (progress : Progress) : Option Progress := do
  let (length, rest) ← readBased lengthBases symbol progress.bits
  let (distanceSymbol, rest) ← codes.distances.read rest
  let (distance, rest) ← readBased distanceBases distanceSymbol rest
  some ⟨copyBack distance length progress.output, rest⟩

/-- Reads the symbols of a block up to its end. Each takes a bit, which bounds them. -/
def readSymbols (codes : Codes) : (fuel : Nat) → Progress → Option Progress
  | 0, _ => none
  | fuel + 1, progress =>
    match codes.literals.read progress.bits with
    | none => none
    | some (symbol, rest) =>
      if symbol < 256 then
        readSymbols codes fuel ⟨progress.output.push (UInt8.ofNat symbol), rest⟩
      else if symbol = 256 then some ⟨progress.output, rest⟩
      else
        match readCopy codes (symbol - 257) ⟨progress.output, rest⟩ with
        | none => none
        | some further => readSymbols codes fuel further

/-- Reads a block of bytes as they are. -/
def readStored (progress : Progress) : Option Progress := do
  let (length, rest) ← readNumber 16 (aligned progress.bits)
  let (complement, rest) ← readNumber 16 rest
  if length + complement ≠ 65535 then none
  if rest.length < 8 * length then none
  some ⟨progress.output ++ (bytesOf (rest.take (8 * length))).toArray, rest.drop (8 * length)⟩

/-- Reads the content of a block of a kind. -/
def readContent (kind : Nat) (progress : Progress) : Option Progress := do
  match kind with
  | 0 => readStored progress
  | 1 => readSymbols (← fixedCodes?) progress.bits.length progress
  | 2 =>
    let (codes, rest) ← readCodes progress.bits
    readSymbols codes rest.length ⟨progress.output, rest⟩
  | _ => none

def readBlocks : (fuel : Nat) → Progress → Option Progress
  | 0, _ => none
  | fuel + 1, progress =>
    match readNumber 3 progress.bits with
    | none => none
    | some (mark, rest) =>
      match readContent (mark / 2) ⟨progress.output, rest⟩ with
      | none => none
      | some further => if mark % 2 = 1 then some further else readBlocks fuel further

/-- Inflates the head of a byte sequence; gives also the bytes behind it. -/
def inflate (bytes : Bytes) : Option (Bytes × Bytes) :=
  (readBlocks (8 * bytes.length + 1) ⟨#[], bitsOf bytes⟩).map fun progress =>
    (progress.output.toList, bytesOf (aligned progress.bits))

end Coffer.Inflate
