import Coffer.Cryptography.ChaCha20

namespace Coffer

/-! # Sealed bytes

Bytes encrypted with ChaCha20 and authenticated, along with bytes that stay readable, by
a Poly1305 tag.
-/

namespace Poly1305

/-- The prime below two to the power of 130. -/
def modulus : Nat := Nat.pow 2 130 - 5

/-- The bits of the factor that may be set. -/
def mask : Nat := 0x0ffffffc0ffffffc0ffffffc0fffffff

/-- Takes a run of at most sixteen bytes in. -/
def absorb (factor sum : Nat) (run : Bytes) : Nat :=
  (sum + (run.number + Nat.pow 2 (8 * run.length))) * factor % modulus

def tag (key message : Bytes) : Bytes :=
  let factor := (Bytes.number (key.take 16)) &&& mask
  let sum := (message.runs 16).foldl (absorb factor) 0
  Bytes.littleEndian 16 ((sum + Bytes.number (key.drop 16)) % Nat.pow 2 128)

end Poly1305

namespace Sealed

/-- Zeros up to the next multiple of sixteen bytes. -/
def padding (bytes : Bytes) : Bytes :=
  List.replicate ((16 - bytes.length % 16) % 16) 0

def tag (key nonce readable encrypted : Bytes) : Bytes :=
  Poly1305.tag ((ChaCha20.block key nonce 0).take 32)
    (readable ++ (padding readable ++ (encrypted ++ (padding encrypted ++
      (Bytes.littleEndian 8 readable.length ++ Bytes.littleEndian 8 encrypted.length)))))

def nonceLength : Nat := 12

def tagLength : Nat := 16

/-- Seals bytes: the nonce, the tag and the encrypted bytes. -/
def close (key nonce readable content : Bytes) : Bytes :=
  let encrypted := ChaCha20.apply key nonce 1 content
  nonce ++ (tag key nonce readable encrypted ++ encrypted)

/-- Opens sealed bytes, unless the tag is wrong. -/
def open? (key readable box : Bytes) : Option Bytes :=
  if box.length < nonceLength + tagLength then none
  else
    let nonce := box.take nonceLength
    let expected := (box.drop nonceLength).take tagLength
    let encrypted := box.drop (nonceLength + tagLength)
    if tag key nonce readable encrypted = expected then
      some (ChaCha20.apply key nonce 1 encrypted)
    else none

end Sealed

end Coffer
