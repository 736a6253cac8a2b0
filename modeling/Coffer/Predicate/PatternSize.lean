import Coffer.Predicate.Pattern

namespace Coffer.Pattern

/-! # The size of a pattern

A pattern is matched by two automata over the bytes of UTF-8, one that reads forwards and
one that reads backwards. Forwards, byte sequences of one part share their common beginnings
and endings; backwards, each sequence is an alternative of its own. Both automata are held
in memory that is limited, so a pattern of too many parts is refused.
-/

/-- Byte sequences of one length, as the range of bytes at each place. -/
abbrev ByteRanges := List (Nat × Nat)

/-- The bytes a state takes. -/
def stateSize : Nat := 32

/-- The bytes a branch of a forward state takes. -/
def branchSize : Nat := 8

/-- The bytes an alternative of a backward state takes. -/
def alternativeSize : Nat := 4

/-- The bytes either automaton may take. -/
def sizeLimit : Nat := 10485760

def anyCharacter : List ByteRanges := [
  [(0x00, 0x7F)],
  [(0xC2, 0xDF), (0x80, 0xBF)],
  [(0xE0, 0xE0), (0xA0, 0xBF), (0x80, 0xBF)],
  [(0xE1, 0xEC), (0x80, 0xBF), (0x80, 0xBF)],
  [(0xED, 0xED), (0x80, 0x9F), (0x80, 0xBF)],
  [(0xEE, 0xEF), (0x80, 0xBF), (0x80, 0xBF)],
  [(0xF0, 0xF0), (0x90, 0xBF), (0x80, 0xBF), (0x80, 0xBF)],
  [(0xF1, 0xF3), (0x80, 0xBF), (0x80, 0xBF), (0x80, 0xBF)],
  [(0xF4, 0xF4), (0x80, 0x8F), (0x80, 0xBF), (0x80, 0xBF)]
]

def bytesOf (c : Char) : ByteRanges :=
  (String.utf8EncodeChar c).map fun byte => (byte.toNat, byte.toNat)

/-- Joins a byte sequence to the one after it, if they differ in the last place only and
the ranges there are adjacent. -/
def joined? : ByteRanges → ByteRanges → Option ByteRanges
  | [first], [second] =>
    if first.2 + 1 = second.1 then some [(first.1, second.2)] else none
  | first :: firsts, second :: seconds =>
    if first = second then (joined? firsts seconds).map (first :: ·) else none
  | _, _ => none

/-- Puts a byte sequence in front of others, joined to the first of them if it can be. -/
def joinFirst (sequence : ByteRanges) : List ByteRanges → List ByteRanges
  | [] => [sequence]
  | next :: rest =>
    match joined? sequence next with
    | some both => both :: rest
    | none => sequence :: next :: rest

/-- The byte sequences of some characters, given in order. -/
def sequencesOf (characters : List Char) : List ByteRanges :=
  (characters.map bytesOf).foldr joinFirst []

/-- What follows each first range of some byte sequences in order. -/
def branches : List ByteRanges → List ((Nat × Nat) × List ByteRanges)
  | [] => []
  | [] :: rest => branches rest
  | (range :: tail) :: rest =>
    match branches rest with
    | [] => [(range, [tail])]
    | (next, tails) :: more =>
      if range = next then (range, tail :: tails) :: more
      else (range, [tail]) :: (next, tails) :: more

/-- The forward states that read some byte sequences, each as what is still to be read.
No sequence is longer than the depth. -/
def forwardStates : (depth : Nat) → List ByteRanges → List (List ByteRanges)
  | 0, _ => []
  | depth + 1, sequences =>
    if sequences.all List.isEmpty then []
    else
      sequences :: (branches sequences).flatMap fun branch => forwardStates depth branch.2

/-- The bytes of the forward states that read some byte sequences. -/
def forwardSize (sequences : List ByteRanges) : Nat :=
  (forwardStates 5 sequences).eraseDups.foldl
    (fun size state => size + (stateSize + branchSize * (branches state).length)) stateSize

/-- The beginnings of a byte sequence that are not empty. -/
def beginnings (sequence : ByteRanges) : List ByteRanges :=
  (List.range sequence.length).map fun length => sequence.take (length + 1)

/-- The bytes of the backward states that read some byte sequences. -/
def backwardSize (sequences : List ByteRanges) : Nat :=
  stateSize * ((sequences.flatMap beginnings).eraseDups.length + 2) +
    alternativeSize * sequences.length

/-- The bytes that a part adds to the forward and to the backward automaton. -/
structure PartSize where
  forward : Nat
  backward : Nat
  deriving DecidableEq, Repr

/-- The size of a part that takes one of some characters, given in order. A single one is
a chain of its bytes; characters of ASCII need one state. -/
def sizeOfClass (characters : List Char) : PartSize :=
  if characters.length ≤ 1 then
    let size := stateSize * (characters.flatMap String.utf8EncodeChar).length
    { forward := size, backward := size }
  else if characters.all Text.isAscii then
    let size := 2 * stateSize + branchSize * characters.length
    { forward := size, backward := size }
  else
    let sequences := sequencesOf characters
    { forward := forwardSize sequences, backward := backwardSize sequences }

/-- The size of a part that takes any one character. -/
def sizeOfAny : PartSize where
  forward := forwardSize anyCharacter
  backward := backwardSize anyCharacter

/-- The size of a part. A run is one character again and again, led by a state that
chooses between one more and the rest. -/
def sizeOfPart (any : PartSize) : PatternPart → PartSize
  | .run =>
    { forward := any.forward + stateSize + 2 * alternativeSize
      backward := any.backward + stateSize + 2 * alternativeSize }
  | .one => any
  | .letter c =>
    sizeOfClass ((Text.caseVariants c).mergeSort fun first second =>
      decide (first.toNat ≤ second.toNat))

/-- The size of a pattern. The forward automaton adds states for the start and the end of
what it finds to those for the ends of the text and for the match. -/
def size (pattern : Pattern) : PartSize :=
  let any := sizeOfAny
  pattern.foldl
    (fun size part =>
      let more := sizeOfPart any part
      { forward := size.forward + more.forward, backward := size.backward + more.backward })
    { forward := 6 * stateSize, backward := 4 * stateSize }

/-- Whether both automata of a pattern keep within the limit. -/
def fits (pattern : Pattern) : Bool :=
  let size := pattern.size
  decide (size.forward ≤ sizeLimit) && decide (size.backward ≤ sizeLimit)

end Coffer.Pattern
