import SchedulerPolicy.Codec

/-!
# Jobs

A job as the scheduler service describes it. The fields that policies look at are named; every other
key of a job is kept in `extra` as it was written, so that a job can be carried from a fragment into
the job document and back without loss.

Jobs are compared with `==`, under which kept values are the same when they agree as values.
-/

namespace SchedulerPolicy

/-- A presubmit, postsubmit or periodic job. -/
structure Job where
  name : String
  /-- The status context under which the job reports. -/
  context : Option String := none
  /-- The engine that runs the job. -/
  agent : Option String := none
  alwaysRun : Option Bool := none
  optional : Option Bool := none
  /-- The pattern of comments that start the job. -/
  trigger : Option String := none
  rerunCommand : Option String := none
  skipReport : Option Bool := none
  runIfChanged : Option String := none
  branches : List String := []
  skipBranches : List String := []
  maxConcurrency : Option UInt32 := none
  /-- The timetable of a job that also runs on its own. -/
  cron : Option String := none
  labels : Keyed String := ∅
  annotations : Keyed String := ∅
  /-- The keys that are not fields, with their values. -/
  extra : Keyed Value := ∅
deriving BEq, Inhabited

namespace Job

/-- The keys of a job that are fields. -/
def fieldNames : List String :=
  ["name", "context", "agent", "always_run", "optional", "trigger", "rerun_command", "skip_report",
    "run_if_changed", "branches", "skip_branches", "max_concurrency", "cron", "labels",
    "annotations"]

instance : Schema Job where
  read x := do
    let fs ← Fields.ofReadable fieldNames x
    return {
      name := ← fs.required "name"
      context := ← fs.optional "context"
      agent := ← fs.optional "agent"
      alwaysRun := ← fs.optional "always_run"
      optional := ← fs.optional "optional"
      trigger := ← fs.optional "trigger"
      rerunCommand := ← fs.optional "rerun_command"
      skipReport := ← fs.optional "skip_report"
      runIfChanged := ← fs.optional "run_if_changed"
      branches := ← fs.getD "branches" []
      skipBranches := ← fs.getD "skip_branches" []
      maxConcurrency := ← fs.optional "max_concurrency"
      cron := ← fs.optional "cron"
      labels := ← fs.getD "labels" ∅
      annotations := ← fs.getD "annotations" ∅
      extra := ← fs.extra fieldNames }
  write j := .record <|
    field "name" j.name ++ field? "context" j.context ++ field? "agent" j.agent ++
    field? "always_run" j.alwaysRun ++ field? "optional" j.optional ++
    field? "trigger" j.trigger ++ field? "rerun_command" j.rerunCommand ++
    field? "skip_report" j.skipReport ++ field? "run_if_changed" j.runIfChanged ++
    fieldUnless "branches" j.branches.isEmpty j.branches ++
    fieldUnless "skip_branches" j.skipBranches.isEmpty j.skipBranches ++
    field? "max_concurrency" j.maxConcurrency ++ field? "cron" j.cron ++
    fieldUnless "labels" j.labels.isEmpty j.labels ++
    fieldUnless "annotations" j.annotations.isEmpty j.annotations ++ j.extra.entries

end Job

end SchedulerPolicy
