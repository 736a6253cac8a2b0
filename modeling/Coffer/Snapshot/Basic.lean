import Coffer.Compression.Gzip
import Coffer.Cryptography.Sealed
import Coffer.Snapshot.Header
import Coffer.Snapshot.Key
import Coffer.Snapshot.State

namespace Coffer

/-! # Snapshots

A state becomes a document, is perhaps packed and then perhaps sealed. The header tells
which, and is part of what the seal protects.
-/

namespace Snapshot

/-- What goes into a snapshot besides the state. -/
structure Settings where
  key : Option SnapshotKey
  compress : Bool
  createdAt : Instant
  /-- Twelve bytes that no other snapshot under the key has. -/
  nonce : Bytes

def save (settings : Settings) (state : State) : Bytes :=
  let header : Header :=
    { version := Header.currentVersion, createdAt := settings.createdAt
      encrypted := settings.key.isSome, compressed := settings.compress
      algorithm := settings.key.map fun _ => Header.cipher }
  let headerBytes := header.toJson.written
  let plain := state.toJson.written
  let packed := if settings.compress then Gzip.pack plain else plain
  let payload := match settings.key with
    | some key => Sealed.close key.bytes settings.nonce headerBytes packed
    | none => packed
  SnapshotParts.toBytes headerBytes payload

/-- The payload of a snapshot without its seal. -/
def unsealed (parts : SnapshotParts) (key : Option SnapshotKey) : Except Error Bytes :=
  if parts.header.encrypted then
    match key with
    | none => .error .snapshotEncrypted
    | some key =>
      match Sealed.open? key.bytes parts.headerBytes parts.payload with
      | some content => .ok content
      | none => .error .decryptionFailure
  else .ok parts.payload

/-- The payload of a snapshot as it was before it was packed. -/
def unpacked (parts : SnapshotParts) (content : Bytes) : Except Error Bytes :=
  if parts.header.compressed then
    match Gzip.unpack? content with
    | some plain => .ok plain
    | none => .error .invalidCompression
  else .ok content

def load (key : Option SnapshotKey) (blob : Bytes) : Except Error State := do
  let parts ← SnapshotParts.ofBytes blob
  let content ← unsealed parts key
  let plain ← unpacked parts content
  match (Json.ofBytes? plain).bind State.ofJson? with
  | some state => state.restore
  | none => throw .invalidPayload

end Snapshot

end Coffer
