import TensorEngine.Artifact.Blob

/-!
# Artifact stores

Artifacts by key, in memory and perhaps also in a directory with one file per key.  An artifact
that is only in the directory is taken into memory when it is asked for; a file that is no
artifact is passed over.
-/

namespace TensorEngine

structure ArtifactDirectory where
  /-- The files, in ascending order of their keys. -/
  files : List (UInt64 × Bytes) := []
deriving DecidableEq, Repr, Inhabited

namespace ArtifactDirectory

def fileName (key : UInt64) : String := "artifact_" ++ Text.hexWord key ++ ".bin"

def read? (directory : ArtifactDirectory) (key : UInt64) : Option Bytes :=
  directory.files.lookup key

/-- Puts a file among files in ascending order. -/
def writeFiles (key : UInt64) (bytes : Bytes) : List (UInt64 × Bytes) → List (UInt64 × Bytes)
  | [] => [(key, bytes)]
  | (other, old) :: rest =>
    if key = other then (key, bytes) :: rest
    else if key < other then (key, bytes) :: (other, old) :: rest
    else (other, old) :: writeFiles key bytes rest

def write (directory : ArtifactDirectory) (key : UInt64) (bytes : Bytes) : ArtifactDirectory :=
  ⟨writeFiles key bytes directory.files⟩

def remove (directory : ArtifactDirectory) (key : UInt64) : ArtifactDirectory :=
  ⟨directory.files.filter (·.1 ≠ key)⟩

/-- The names and sizes of the files. -/
def listing (directory : ArtifactDirectory) : List (String × Nat) :=
  directory.files.map fun (key, bytes) ↦ (fileName key, bytes.length)

end ArtifactDirectory

structure ArtifactStore where
  /-- The artifacts in memory, each key at most once. -/
  entries : List (UInt64 × ArtifactBlob) := []
  /-- The directory, when there is one. -/
  directory : Option ArtifactDirectory := none
deriving DecidableEq, Repr, Inhabited

namespace ArtifactStore

def size (store : ArtifactStore) : Nat := store.entries.length

def isEmpty (store : ArtifactStore) : Bool := store.entries.isEmpty

/-- A store with nothing in memory over a directory. -/
def overDirectory (directory : ArtifactDirectory) : ArtifactStore :=
  { directory := some directory }

/-- Keeps an artifact in memory. -/
def remember (store : ArtifactStore) (key : UInt64) (blob : ArtifactBlob) : ArtifactStore :=
  { store with entries := (key, blob) :: store.entries.filter (·.1 ≠ key) }

/-- The artifact for a key; one that is found in the directory only is kept in memory. -/
def get (store : ArtifactStore) (key : UInt64) : Option ArtifactBlob × ArtifactStore :=
  match store.entries.lookup key with
  | some blob => (some blob, store)
  | none =>
    let blob := do
      let bytes ← (← store.directory).read? key
      (ArtifactBlob.ofBytes? bytes).toOption
    match blob with
    | some blob => (some blob, store.remember key blob)
    | none => (none, store)

def put (store : ArtifactStore) (key : UInt64) (blob : ArtifactBlob) : ArtifactStore :=
  let store := store.remember key blob
  { store with directory := store.directory.map (·.write key blob.bytes) }

end ArtifactStore

end TensorEngine
