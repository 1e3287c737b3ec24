import TensorEngine.Backend

/-!
# Artifact blobs

The stored form of a finalized instance:

```
magic (8 bytes) | format version (4) | length of the header (4) | header | payload
```

The header states what the payload was compiled against; the payload is whatever the
implementation wrote.
-/

namespace TensorEngine

open Wire

/-- What a payload was compiled against. -/
structure ArtifactHeader where
  backend : BackendKind
  implementation : String
  /-- The version of its written form. -/
  version : UInt32
  deviceFingerprint : UInt64
  op : OperationKind
  nodeSignature : UInt64
  shapes : ConcreteShapes
deriving DecidableEq, Repr, Inhabited

namespace ArtifactHeader

instance : Encode ArtifactHeader where
  encode header :=
    encode header.backend ++ encode header.implementation ++ encode header.version
      ++ encode header.deviceFingerprint ++ encode header.op ++ encode header.nodeSignature
      ++ encode header.shapes

instance : Decode ArtifactHeader :=
  ⟨return ⟨← Decode.read, ← Decode.read, ← Decode.read, ← Decode.read, ← Decode.read,
    ← Decode.read, ← Decode.read⟩⟩

end ArtifactHeader

/-- Why an artifact cannot be used. -/
inductive ArtifactError where
  | badMagic
  /-- The format has another version. -/
  | unsupportedVersion (found expected : Nat)
  /-- The bytes end too early. -/
  | truncated (needed available : Nat)
  | header (error : Wire.Error)
  /-- A field of the header has another value than the current one. -/
  | mismatch (field stored current : String)
deriving DecidableEq, Repr

def ArtifactError.name : ArtifactError → String
  | .badMagic => "BadMagic"
  | .unsupportedVersion .. => "UnsupportedVersion"
  | .truncated .. => "Truncated"
  | .header .. => "Header"
  | .mismatch .. => "Mismatch"

def ArtifactError.message : ArtifactError → String
  | .badMagic => "artifact does not start with the expected magic"
  | .unsupportedVersion found expected =>
    s!"artifact format version {found} is not supported (expected {expected})"
  | .truncated needed available =>
    s!"artifact is truncated: need {needed} bytes, have {available}"
  | .header error => s!"artifact header is malformed: {error.message}"
  | .mismatch field stored current =>
    s!"artifact {field} mismatch: stored {stored}, current {current}"

/-- A stored form whose header has been read. -/
structure ArtifactBlob where
  header : ArtifactHeader
  /-- The bytes of the header; there may be more than those of its written form. -/
  headerBytes : Bytes
  payload : Bytes
deriving DecidableEq, Repr, Inhabited

namespace ArtifactBlob

def magic : Bytes := Utf8.encode "PRIMRTAF"

def formatVersion : Nat := 1

/-- The number of bytes in front of the header. -/
def preambleSize : Nat := 16

def ofParts (header : ArtifactHeader) (payload : Bytes) : ArtifactBlob :=
  ⟨header, encode header, payload⟩

def bytes (blob : ArtifactBlob) : Bytes :=
  magic ++ littleEndian 4 formatVersion ++ littleEndian 4 blob.headerBytes.length
    ++ blob.headerBytes ++ blob.payload

def size (blob : ArtifactBlob) : Nat := blob.bytes.length

/-- The number of four bytes at an offset. -/
def wordAt (bytes : Bytes) (offset : Nat) : Nat :=
  ofLittleEndian ((bytes.drop offset).take 4)

/-- Reads a blob; a start that is too short is told apart from one that differs. -/
def ofBytes? (bytes : Bytes) : Except ArtifactError ArtifactBlob := do
  if bytes.take magic.length ≠ magic.take bytes.length then throw .badMagic
  if bytes.length < preambleSize then throw (.truncated preambleSize bytes.length)
  let version := wordAt bytes 8
  if version ≠ formatVersion then throw (.unsupportedVersion version formatVersion)
  let payloadOffset := preambleSize + wordAt bytes 12
  if bytes.length < payloadOffset then throw (.truncated payloadOffset bytes.length)
  let headerBytes := (bytes.take payloadOffset).drop preambleSize
  let header ← (decode headerBytes).mapError .header
  return ⟨header, headerBytes, bytes.drop payloadOffset⟩

end ArtifactBlob

end TensorEngine
