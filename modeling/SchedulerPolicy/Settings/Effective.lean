import SchedulerPolicy.Files.Tree
import SchedulerPolicy.Settings.Basic
import SchedulerPolicy.Settings.Overlay
import SchedulerPolicy.Sha256
import SchedulerPolicy.Toml.Notation

/-!
# Effective settings

The settings of a run are merged from four layers: the defaults, a file of the host, a file of the
repository and the command line. `EffectiveSettings` keeps with the settings the layers that
contributed to them, a file with its path and the digest of its bytes, so that a report can say what
a run was based on. A file that does not exist contributes nothing, and neither does a command line
without settings.
-/

namespace SchedulerPolicy

/-- Where a layer of settings comes from. -/
inductive Origin where
  | builtin
  | host
  | repo
  | cli
deriving DecidableEq, Repr

/-- The origin as it is written in reports. -/
def Origin.name : Origin → String
  | .builtin => "builtin"
  | .host => "host"
  | .repo => "repo"
  | .cli => "cli"

/-- A layer that contributed to the settings. -/
structure SettingsSource where
  origin : Origin
  path : Option String := none
  /-- The digest of the bytes of a file. -/
  digest : Option String := none
deriving DecidableEq

/-- A source as a value. -/
def SettingsSource.toValue (s : SettingsSource) : Value :=
  .record <| field "origin" s.origin.name ++ field? "path" s.path ++ field? "digest" s.digest

/-- A file of settings: its path, and what is found there. -/
structure SettingsFile where
  path : String
  content : FileContent

/-- Why there are no settings. -/
inductive SettingsError where
  /-- A file exists but cannot be read. -/
  | unreadable (path : String)
  /-- A file is malformed. -/
  | malformed (path : String)
  /-- The merged layers do not fit the types of the settings. -/
  | mismatch
  | invalid (fault : SettingsFault)
deriving DecidableEq, Repr

/-- The error in words. -/
def SettingsError.message : SettingsError → String
  | .unreadable path => "cannot read " ++ path
  | .malformed path => "parse error: " ++ path
  | .mismatch => "parse error"
  | .invalid fault => "invalid configuration: " ++ fault.message

/-- Merged settings, and the layers that contributed to them. -/
structure EffectiveSettings where
  settings : Settings
  sources : List SettingsSource
deriving DecidableEq

namespace EffectiveSettings

/-- The name of this form of record. -/
def schemaId : String := "gitops-scheduler/effective_config@1"

/-- The version of this form of record. -/
def schemaVersion : Nat := 1

/-- Settings and sources as a value. -/
def toValue (e : EffectiveSettings) : Value :=
  .record [
    ("schema_version", .int schemaVersion), ("schema_id", .string schemaId),
    ("settings", write e.settings), ("sources", .seq (e.sources.map SettingsSource.toValue))]

/-- The layer of a file, if the file exists. -/
def fileLayer? (origin : Origin) :
    Option SettingsFile → Except SettingsError (Option (Value × SettingsSource))
  | none => .ok none
  | some file =>
    match file.content with
    | .absent => .ok none
    | .unreadable => .error (.unreadable file.path)
    | .text contents =>
      match Toml.read? contents with
      | some v =>
        .ok (some (v, {
          origin, path := some file.path, digest := some (Sha256.hexDigest contents) }))
      | none => .error (.malformed file.path)

/-- The layer of the command line, if it has settings. -/
def cliLayer? : Option Value → Option (Value × SettingsSource)
  | some (.map (e :: rest)) => some (.map (e :: rest), { origin := .cli })
  | _ => none

/-- The layers of a run, the lowest first. -/
def layers (host repo : Option SettingsFile) (cli : Option Value) :
    Except SettingsError (List (Value × SettingsSource)) := do
  let defaults : Settings := {}
  let host ← fileLayer? .host host
  let repo ← fileLayer? .repo repo
  return (write defaults, { origin := .builtin }) :: host.toList ++ repo.toList ++
    (cliLayer? cli).toList

/-- The settings of a run. -/
def ofLayers (host repo : Option SettingsFile) (cli : Option Value) :
    Except SettingsError EffectiveSettings := do
  let layers ← layers host repo cli
  let settings : Settings ←
    (read (Buffered.mk (overlayAll (layers.map (·.1)))) : Decoded Settings).mapError
      fun _ => SettingsError.mismatch
  match settings.fault? with
  | some fault => .error (.invalid fault)
  | none => return { settings, sources := layers.map (·.2) }

end EffectiveSettings

end SchedulerPolicy
