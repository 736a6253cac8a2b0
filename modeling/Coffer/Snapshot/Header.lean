import Coffer.Error
import Coffer.Json.Content
import Coffer.Snapshot.Instant

namespace Coffer

/-! # Snapshot headers

A snapshot starts with the length of its header, in four bytes, and the header itself,
which stays readable. What follows is the payload.
-/

structure Header where
  version : Nat
  createdAt : Instant
  encrypted : Bool
  compressed : Bool
  /-- The cipher of the payload. -/
  algorithm : Option String
  deriving DecidableEq, Repr

namespace Header

/-- The version that is written, and the only one that is read. -/
def currentVersion : Nat := 1

def cipher : String := "chacha20-poly1305"

def toJson (header : Header) : Json :=
  .ofMembers [
    ("version", .ofInt header.version),
    ("createdAt", .ofText header.createdAt.toText),
    ("encrypted", .boolean header.encrypted),
    ("compressed", .boolean header.compressed),
    ("algorithm", .ofOption .ofText header.algorithm)]

def ofJson? (document : Json) : Option Header := do
  let record ← Json.Record.ofJson?
    ["version", "createdAt", "encrypted", "compressed", "algorithm"] document
  let version ← record.required "version" (Json.natural? (Nat.pow 2 32))
  let createdAt ← record.required "createdAt" fun field => field.text?.bind Instant.ofText?
  let encrypted ← record.required "encrypted" Json.boolean?
  let compressed ← record.required "compressed" Json.boolean?
  let algorithm ← record.optional "algorithm" Json.text?
  some { version, createdAt, encrypted, compressed, algorithm }

/-- Checks that snapshots with the header can be read. -/
def check (header : Header) : Except Error Unit := do
  if header.version ≠ currentVersion then throw (.snapshotVersion header.version)
  match header.algorithm with
  | some algorithm =>
    if algorithm = cipher then return () else throw (.snapshotAlgorithm algorithm)
  | none => return ()

end Header

/-- A snapshot cut into its parts: the header, its bytes, and the payload. -/
structure SnapshotParts where
  header : Header
  headerBytes : Bytes
  payload : Bytes

/-- Cuts a snapshot into its parts, and checks the header. -/
def SnapshotParts.ofBytes (blob : Bytes) : Except Error SnapshotParts := do
  if blob.length < 4 then throw .snapshotTruncated
  let length := Bytes.number (blob.take 4)
  let rest := blob.drop 4
  if rest.length < length then throw .headerTruncated
  let headerBytes := rest.take length
  match (Json.ofBytes? headerBytes).bind Header.ofJson? with
  | none => throw .invalidHeader
  | some header =>
    header.check
    return { header, headerBytes, payload := rest.drop length }

/-- Puts a snapshot together. -/
def SnapshotParts.toBytes (headerBytes payload : Bytes) : Bytes :=
  Bytes.littleEndian 4 headerBytes.length ++ (headerBytes ++ payload)

end Coffer
