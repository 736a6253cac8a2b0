import Coffer.Compression.Inflate

namespace Coffer.Crc32

/-! # Cyclic redundancy checks -/

def shift (register : UInt32) : UInt32 :=
  if register &&& 1 = 1 then (register >>> 1) ^^^ 0xEDB88320 else register >>> 1

def feed (register : UInt32) (byte : UInt8) : UInt32 :=
  Nat.repeat shift 8 (register ^^^ byte.toUInt32)

def check (bytes : Bytes) : UInt32 :=
  bytes.foldl feed 0xFFFFFFFF ^^^ 0xFFFFFFFF

end Coffer.Crc32

namespace Coffer.Gzip

/-! # Gzip members

A member is a header, deflated bytes, their check and their number. What follows the first
member is passed over. Bytes are packed as they are, in stored blocks.
-/

/-- The rest after bytes that a zero ends, of which there may be a given number. -/
def afterZero? : (room : Nat) → Bytes → Option Bytes
  | _, [] => none
  | 0, byte :: rest => if byte = 0 then some rest else none
  | room + 1, byte :: rest => if byte = 0 then some rest else afterZero? room rest

/-- The rest after bytes that their number stands before. -/
def afterCounted? : Bytes → Option Bytes
  | low :: high :: rest =>
    let length := Bytes.number [low, high]
    if length ≤ rest.length then some (rest.drop length) else none
  | _ => none

/-- Whether a flag of the header is set. -/
def hasFlag (flags : UInt8) (place : Nat) : Bool :=
  flags.toNat.testBit place

/-- The rest after the optional check of the header. -/
def afterHeaderCheck? (flags : UInt8) (all rest : Bytes) : Option Bytes :=
  if hasFlag flags 1 then
    match rest with
    | low :: high :: after =>
      let header := all.take (all.length - rest.length)
      if (Crc32.check header).toNat % 65536 = Bytes.number [low, high] then some after else none
    | _ => none
  else some rest

/-- The rest after an optional part of the header. -/
def afterPart? (present : Bool) (skip : Bytes → Option Bytes) (bytes : Bytes) : Option Bytes :=
  if present then skip bytes else some bytes

def afterHeader? (all : Bytes) : Option Bytes :=
  match all with
  | 0x1f :: 0x8b :: 8 :: flags :: _ :: _ :: _ :: _ :: _ :: _ :: rest => do
    if 32 ≤ flags then none
    let rest ← afterPart? (hasFlag flags 2) afterCounted? rest
    let rest ← afterPart? (hasFlag flags 3) (afterZero? 65535) rest
    let rest ← afterPart? (hasFlag flags 4) (afterZero? 65535) rest
    afterHeaderCheck? flags all rest
  | _ => none

/-- The bytes that the first member holds. -/
def unpack? (bytes : Bytes) : Option Bytes := do
  let body ← afterHeader? bytes
  let (content, rest) ← Inflate.inflate body
  if rest.length < 8 then none
  if Bytes.number (rest.take 4) ≠ (Crc32.check content).toNat then none
  if Bytes.number ((rest.drop 4).take 4) ≠ content.length % Nat.pow 2 32 then none
  some content

def storedBlock (last : Bool) (content : Bytes) : Bytes :=
  (if last then 1 else 0) :: (Bytes.littleEndian 2 content.length ++
    (Bytes.littleEndian 2 (65535 - content.length) ++ content))

def storedBlocks : List Bytes → Bytes
  | [] => storedBlock true []
  | [run] => storedBlock true run
  | run :: rest => storedBlock false run ++ storedBlocks rest

/-- A member that holds the bytes. -/
def pack (content : Bytes) : Bytes :=
  [0x1f, 0x8b, 8, 0, 0, 0, 0, 0, 0, 255] ++ (storedBlocks (content.runs 65535) ++
    (Bytes.littleEndian 4 (Crc32.check content).toNat ++
      Bytes.littleEndian 4 (content.length % Nat.pow 2 32)))

end Coffer.Gzip
