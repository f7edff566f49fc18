import SchedulerPolicy.Fragment.MergeQueue
import SchedulerPolicy.Fragment.Plugins
import SchedulerPolicy.Fragment.Protection

/-!
# Fragments

A fragment is the scheduling policy of one scope: a team, a group of repositories, a repository, or
the configuration repository's own injection. Every field may be absent, which means that the scope
has no opinion and a scope of lower precedence may fill it in.
-/

namespace SchedulerPolicy

/-- The engine that runs jobs. -/
structure Agent where
  agent : Option String := none
deriving DecidableEq, Inhabited

instance : Schema Agent where
  read x := do
    let fs ← Fields.ofReadable ["agent"] x
    return { agent := ← fs.optional "agent" }
  write a := .record <| field? "agent" a.agent

/-- The scheduling policy of one scope. -/
structure Fragment where
  schedulerAgent : Option Agent := none
  policy : Option Protection := none
  presubmits : Option JobSet := none
  postsubmits : Option JobSet := none
  periodics : Option JobSet := none
  trigger : Option TriggerRules := none
  approve : Option ApproveRules := none
  lgtm : Option LgtmRules := none
  externalPlugins : Option (ReplaceList ExternalPlugin) := none
  plugins : Option (ReplaceList String) := none
  merger : Option MergeRules := none
  configUpdater : Option PublishedFiles := none
  welcome : Option (ReplaceList WelcomeMessage) := none
  attachments : Option (ReplaceList Attachment) := none
deriving BEq, Inhabited

namespace Fragment

instance : Schema Fragment where
  read x := do
    let fs ← Fields.ofReadable
      ["schedulerAgent", "policy", "presubmits", "postsubmits", "periodics", "trigger", "approve",
        "lgtm", "externalPlugins", "plugins", "merger", "configUpdater", "welcome",
        "attachments"] x
    return {
      schedulerAgent := ← fs.optional "schedulerAgent"
      policy := ← fs.optional "policy"
      presubmits := ← fs.optional "presubmits"
      postsubmits := ← fs.optional "postsubmits"
      periodics := ← fs.optional "periodics"
      trigger := ← fs.optional "trigger"
      approve := ← fs.optional "approve"
      lgtm := ← fs.optional "lgtm"
      externalPlugins := ← fs.optional "externalPlugins"
      plugins := ← fs.optional "plugins"
      merger := ← fs.optional "merger"
      configUpdater := ← fs.optional "configUpdater"
      welcome := ← fs.optional "welcome"
      attachments := ← fs.optional "attachments" }
  write f := .record <|
    field? "schedulerAgent" f.schedulerAgent ++ field? "policy" f.policy ++
    field? "presubmits" f.presubmits ++ field? "postsubmits" f.postsubmits ++
    field? "periodics" f.periodics ++ field? "trigger" f.trigger ++
    field? "approve" f.approve ++ field? "lgtm" f.lgtm ++
    field? "externalPlugins" f.externalPlugins ++ field? "plugins" f.plugins ++
    field? "merger" f.merger ++ field? "configUpdater" f.configUpdater ++
    field? "welcome" f.welcome ++ field? "attachments" f.attachments

/-- The fragment without opinions. -/
def empty : Fragment := {}

instance : EmptyCollection Fragment := ⟨empty⟩

/-- Whether no field is set. -/
def isEmpty (f : Fragment) : Bool := f == empty

/-- The names of the plugins, in order. -/
def pluginNames (f : Fragment) : List String := (f.plugins.map (·.items)).getD []

end Fragment

end SchedulerPolicy
