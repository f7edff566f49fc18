import SchedulerPolicy.Fragment.Basic

/-!
# Bootstrap

The repository that holds the configuration itself is always set up to publish the two compiled
documents as config maps, whatever its schedulers say. `Bootstrap` says from which paths and as
which maps, and `Bootstrap.fragment` is the policy that ensures it. The plugin list of that fragment
does not replace, so the plugins of lower scopes stay.
-/

namespace SchedulerPolicy

/-- The plugin that publishes configuration files as config maps. -/
def configUpdaterPlugin : String := "config-updater"

/-- Where the compiled documents lie in the repository, and the config maps that receive them. -/
structure Bootstrap where
  configPath : String := "config/config.yaml"
  pluginsPath : String := "config/plugins.yaml"
  configMap : String := "config"
  pluginsMap : String := "plugins"
  /-- The namespace of both config maps. -/
  namespaceName : Option String := none
deriving DecidableEq, Inhabited

namespace Bootstrap

/-- Every field has a default. -/
instance : Schema Bootstrap where
  read x := do
    let fs ← Fields.ofReadable
      ["config_path", "plugins_path", "config_map", "plugins_map", "namespace"] x
    let fallback : Bootstrap := {}
    return {
      configPath := ← fs.getD "config_path" fallback.configPath
      pluginsPath := ← fs.getD "plugins_path" fallback.pluginsPath
      configMap := ← fs.getD "config_map" fallback.configMap
      pluginsMap := ← fs.getD "plugins_map" fallback.pluginsMap
      namespaceName := ← fs.optional "namespace" }
  write b := .record <|
    field "config_path" b.configPath ++ field "plugins_path" b.pluginsPath ++
    field "config_map" b.configMap ++ field "plugins_map" b.pluginsMap ++
    field? "namespace" b.namespaceName

/-- The files that the bootstrap publishes. -/
def published (b : Bootstrap) : Keyed ConfigMapTarget :=
  Keyed.ofList [
    (b.configPath, { name := b.configMap, namespaceName := b.namespaceName }),
    (b.pluginsPath, { name := b.pluginsMap, namespaceName := b.namespaceName })]

/-- The policy that goes on top of the chain of the configuration repository. -/
def fragment (b : Bootstrap) : Fragment where
  plugins := some { items := [configUpdaterPlugin] }
  configUpdater := some { map := some b.published }

end Bootstrap

end SchedulerPolicy
