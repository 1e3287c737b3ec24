import TensorEngine.Config
import TensorEngine.Json

/-!
# Configurations as JSON

A configuration is an object with a member per setting, or a list of the settings in their order.
Settings that are left out keep their defaults, members of other names are passed over, and no
setting may be given twice.
-/

namespace TensorEngine.RuntimeConfig

open Json

/-- The settings in their order. -/
inductive Setting where
  | streams
  | implCacheCapacity
  | artifactCache
  | artifactDir
  | maxPoolBytes
deriving DecidableEq, Repr

namespace Setting

def all : List Setting :=
  [.streams, .implCacheCapacity, .artifactCache, .artifactDir, .maxPoolBytes]

def key : Setting → String
  | .streams => "streams"
  | .implCacheCapacity => "impl_cache_capacity"
  | .artifactCache => "artifact_cache"
  | .artifactDir => "artifact_dir"
  | .maxPoolBytes => "max_pool_bytes"

def ofKey? (key : String) : Option Setting := all.find? (·.key = key)

def read (setting : Setting) (config : RuntimeConfig) : Reader RuntimeConfig := do
  match setting with
  | .streams => return { config with streams := ← size }
  | .implCacheCapacity => return { config with implCacheCapacity := ← size }
  | .artifactCache => return { config with artifactCache := ← bool }
  | .artifactDir => return { config with artifactDir := ← optional text }
  | .maxPoolBytes => return { config with maxPoolBytes := ← optional size }

end Setting

/-- Reads settings in their order, as many as are given; `first` says whether none stands in
front. -/
def readItems (first : Bool) (config : RuntimeConfig) : List Setting → Reader RuntimeConfig
  | [] => return config
  | setting :: rest => do
    match ← peek? with
    | none => throw .incomplete
    | some ']' => return config
    | some c =>
      if !first then
        if c ≠ ',' then throw .malformed
        advance
        match ← peek? with
        | none => throw .incomplete
        | some ']' => throw .malformed
        | some _ => pure ()
      readItems false (← setting.read config) rest

/-- Reads the end of a list. -/
def closeItems : Reader Unit := do
  match ← peek? with
  | none => throw .incomplete
  | some ']' => advance
  | some _ => throw .malformed

/-- Reads the value of a member; one that was given before is refused without a look at it. -/
def readMember (seen : List Setting) (config : RuntimeConfig) :
    Reader (List Setting × RuntimeConfig) := do
  let setting := Setting.ofKey? (← textBody true)
  if setting.any (· ∈ seen) then throw .mismatch
  if (← peek?).isNone then throw .incomplete
  expect ':'
  match setting with
  | some setting => return (setting :: seen, ← setting.read config)
  | none =>
    skip
    return (seen, config)

/-- Reads members up to the end of an object; the fuel bounds their number. -/
def readMembers (seen : List Setting) (config : RuntimeConfig) :
    (fuel : Nat) → Reader RuntimeConfig
  | 0 => throw .incomplete
  | fuel + 1 => do
    if (← peek?).isNone then throw .incomplete
    expect '"'
    let (seen, config) ← readMember seen config
    match ← peek? with
    | none => throw .incomplete
    | some '\x7d' => advance; return config
    | some ',' => advance; readMembers seen config fuel
    | some _ => throw .malformed

def read : Reader RuntimeConfig := do
  match ← peek? with
  | some '[' =>
    advance
    let config ← readItems true {} Setting.all
    closeItems
    return config
  | some '\x7b' =>
    advance
    if (← peek?) = some '\x7d' then advance; return {}
    else readMembers [] {} ((← get).length + 1)
  | _ => reject

def ofJson? (text : String) : Except Json.Error RuntimeConfig :=
  let whole : Reader RuntimeConfig := do
    let config ← read
    if (← peek?).isSome then throw .malformed
    return config
  (whole.run text.toList).map Prod.fst

end TensorEngine.RuntimeConfig
