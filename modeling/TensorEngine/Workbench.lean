import TensorEngine.Program

/-!
# Workbenches

A workbench holds one program at a time and everything that outlives it: the session, an artifact
store in memory that builds may share, and the directories in which artifacts can be kept.

A build takes its artifacts from the shared store when it is asked to, and otherwise from a new
store over the directory of its settings.  The program keeps that store, so building it anew uses
the same artifacts.
-/

namespace TensorEngine

/-- Where the artifacts of a program are kept. -/
inductive ArtifactPlace where
  | nowhere
  | shared
  /-- In the program's own store over a directory. -/
  | directory (path : String) (store : ArtifactStore)
deriving DecidableEq, Repr, Inhabited

/-- A program and what outlives it. -/
structure Workbench (ι ω : Type) where
  program : Option (Program ι) := none
  place : ArtifactPlace := .nowhere
  shared : ArtifactStore := {}
  /-- The directories that can be opened, by their paths. -/
  directories : List (String × ArtifactDirectory) := []
  session : Session ω

namespace Workbench

variable {ι ω : Type} [Implementation ι ω]

def directory? (bench : Workbench ι ω) (path : String) : Option ArtifactDirectory :=
  bench.directories.lookup path

def setDirectory (bench : Workbench ι ω) (path : String) (directory : ArtifactDirectory) :
    Workbench ι ω :=
  { bench with directories := bench.directories.map fun (other, old) ↦
      (other, if other = path then directory else old) }

def mapEnvironment (bench : Workbench ι ω) (change : ω → ω) : Workbench ι ω :=
  { bench with session := bench.session.withEnvironment (change bench.session.environment) }

/-- The place that settings ask for; a directory that cannot be opened is done without. -/
def configuredPlace (bench : Workbench ι ω) (config : RuntimeConfig) : ArtifactPlace :=
  match config.artifactDir with
  | some path =>
    match bench.directory? path with
    | some directory =>
      if config.artifactCache then .directory path (.overDirectory directory) else .nowhere
    | none => .nowhere
  | none => .nowhere

def store? (bench : Workbench ι ω) : Option ArtifactStore :=
  match bench.place with
  | .nowhere => none
  | .shared => some bench.shared
  | .directory _ store => some store

def keepStore (bench : Workbench ι ω) (store : Option ArtifactStore) : Workbench ι ω :=
  match bench.place, store with
  | .shared, some store => { bench with shared := store }
  | .directory path _, some store =>
    let bench := { bench with place := .directory path store }
    match store.directory with
    | some directory => bench.setDirectory path directory
    | none => bench
  | _, _ => bench

def clear (bench : Workbench ι ω) : Workbench ι ω :=
  { bench with program := none, place := .nowhere }

/-- Builds a program in place of the current one; when that fails there is none. -/
def build (bench : Workbench ι ω) (graph : Graph) (registry : Registry ι) (device : DeviceCaps)
    (config : RuntimeConfig) (useShared : Bool) :
    Except RuntimeError Unit × Workbench ι ω :=
  let place := if useShared then .shared else bench.configuredPlace config
  let bench := { bench with place }
  let (program, store, session) :=
    Program.build graph registry device config bench.store? bench.session
  let bench := ({ bench with session } : Workbench ι ω).keepStore store
  match program with
  | .ok program => (.ok (), { bench with program := some program })
  | .error error => (.error error, bench.clear)

/-- Builds the current program anew; when that fails, it stays as it is. -/
def rebuild (bench : Workbench ι ω) (program : Program ι) :
    Except RuntimeError Unit × Workbench ι ω :=
  let (result, program, store, session) := program.rebuild bench.store? bench.session
  (result, ({ bench with program := some program, session } : Workbench ι ω).keepStore store)

def execute (bench : Workbench ι ω) (program : Program ι) (bindings : Bindings)
    (cancelled : Nat → ω → Bool) : Except RuntimeError (List HostTensor) × Workbench ι ω :=
  let (result, program, session) := program.execute bindings cancelled bench.session
  (result, { bench with program := some program, session })

def sharedArtifact? (bench : Workbench ι ω) (graph : Graph) (id : NodeId) :
    Option (UInt64 × ArtifactBlob) := do
  let node ← graph.node? id
  let key := node.signature (graph.inputLayouts node)
  return (key, ← bench.shared.entries.lookup key)

end Workbench

end TensorEngine
