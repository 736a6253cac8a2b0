import Coffer.Encoding.Hex
import Coffer.Text.Blank

namespace Coffer

/-! # Snapshot keys -/

structure SnapshotKey where
  bytes : Bytes
  length_eq : bytes.length = 32
  deriving DecidableEq

namespace SnapshotKey

/-- Reads a key from hexadecimal text, blanks around it aside. -/
def ofHex (text : String) : Except Error SnapshotKey := do
  let bytes ← Hex.decode (Text.trim text)
  if length_eq : bytes.length = 32 then return { bytes, length_eq }
  else throw (.keyLength bytes.length)

def toHex (key : SnapshotKey) : String :=
  Hex.encode key.bytes

def shown (_ : SnapshotKey) : String :=
  "SnapshotKey(..)"

end SnapshotKey

end Coffer
