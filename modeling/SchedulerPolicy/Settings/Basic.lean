import SchedulerPolicy.Resolution.Bootstrap
import SchedulerPolicy.Text.Blank

/-!
# Settings

What can be set about a run: where resources are found, where documents go, how much is logged, how
the configuration repository is set up, and the team's default scheduler in case the environment
names none. Every setting but the last has a default.
-/

namespace SchedulerPolicy

/-- The settings of a run. -/
structure Settings where
  /-- The directory in which resources are searched. -/
  resourcesDir : String := "."
  /-- The directory that receives documents and report. -/
  outputDir : String := "config"
  logLevel : String := "info"
  bootstrap : Bootstrap := {}
  defaultScheduler : Option String := none
deriving DecidableEq, Inhabited

namespace Settings

/-- The keys of the settings. -/
def fieldNames : List String :=
  ["resources_dir", "output_dir", "log_level", "bootstrap", "default_scheduler"]

instance : Schema Settings where
  read x := do
    let fs ← Fields.ofReadable fieldNames x
    let fallback : Settings := {}
    return {
      resourcesDir := ← fs.getD "resources_dir" fallback.resourcesDir
      outputDir := ← fs.getD "output_dir" fallback.outputDir
      logLevel := ← fs.getD "log_level" fallback.logLevel
      bootstrap := ← fs.getD "bootstrap" fallback.bootstrap
      defaultScheduler := ← fs.optional "default_scheduler" }
  write s := .record <|
    field "resources_dir" s.resourcesDir ++ field "output_dir" s.outputDir ++
    field "log_level" s.logLevel ++ field "bootstrap" s.bootstrap ++
    field? "default_scheduler" s.defaultScheduler

end Settings

/-- What is wrong with settings that are all of the right type. -/
inductive SettingsFault where
  /-- A setting that has to say something is empty or blank. -/
  | empty (key : String)
  /-- The two documents would be published from one path. -/
  | samePaths
  /-- The default scheduler has a blank name. -/
  | blankScheduler
deriving DecidableEq, Repr

/-- The fault in words. -/
def SettingsFault.message : SettingsFault → String
  | .empty key => key ++ " must not be empty"
  | .samePaths => "bootstrap.config_path and bootstrap.plugins_path must differ"
  | .blankScheduler => "default_scheduler must not be blank"

namespace Settings

/-- The settings that have to say something, and whether they fail to. A directory may be blank. -/
def required (s : Settings) : List (String × Bool) :=
  [("resources_dir", s.resourcesDir.isEmpty),
    ("output_dir", s.outputDir.isEmpty),
    ("log_level", Text.isBlank s.logLevel),
    ("bootstrap.config_path", Text.isBlank s.bootstrap.configPath),
    ("bootstrap.plugins_path", Text.isBlank s.bootstrap.pluginsPath),
    ("bootstrap.config_map", Text.isBlank s.bootstrap.configMap),
    ("bootstrap.plugins_map", Text.isBlank s.bootstrap.pluginsMap)]

/-- The first fault of settings. -/
def fault? (s : Settings) : Option SettingsFault :=
  match s.required.find? (·.2) with
  | some (key, _) => some (.empty key)
  | none =>
    if s.bootstrap.configPath == s.bootstrap.pluginsPath then some .samePaths
    else if (s.defaultScheduler.map Text.isBlank).getD false then some .blankScheduler
    else none

end Settings

end SchedulerPolicy
