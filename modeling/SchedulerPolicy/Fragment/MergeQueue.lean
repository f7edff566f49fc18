import SchedulerPolicy.Fragment.Lists

/-!
# Merge-queue settings in a fragment

Which pull requests the merge queue looks for, how it merges them and which status checks gate a
merge. A query is one search; queries that differ only in their repositories are the same search
(`Query.sameSearch`), and a list of queries keeps one entry for each.
-/

namespace SchedulerPolicy

/-- A pull-request search, in the names of the scheduler service. -/
structure Query where
  repos : List String := []
  orgs : List String := []
  labels : List String := []
  missingLabels : List String := []
  excludedBranches : List String := []
  includedBranches : List String := []
  milestone : Option String := none
  reviewApprovedRequired : Option Bool := none
deriving DecidableEq, Inhabited

namespace Query

instance : Schema Query where
  read x := do
    let fs ← Fields.ofReadable
      ["repos", "orgs", "labels", "missingLabels", "excludedBranches", "includedBranches",
        "milestone", "reviewApprovedRequired"] x
    return {
      repos := ← fs.getD "repos" []
      orgs := ← fs.getD "orgs" []
      labels := ← fs.getD "labels" []
      missingLabels := ← fs.getD "missingLabels" []
      excludedBranches := ← fs.getD "excludedBranches" []
      includedBranches := ← fs.getD "includedBranches" []
      milestone := ← fs.optional "milestone"
      reviewApprovedRequired := ← fs.optional "reviewApprovedRequired" }
  write q := .record <|
    fieldUnless "repos" q.repos.isEmpty q.repos ++ fieldUnless "orgs" q.orgs.isEmpty q.orgs ++
    fieldUnless "labels" q.labels.isEmpty q.labels ++
    fieldUnless "missingLabels" q.missingLabels.isEmpty q.missingLabels ++
    fieldUnless "excludedBranches" q.excludedBranches.isEmpty q.excludedBranches ++
    fieldUnless "includedBranches" q.includedBranches.isEmpty q.includedBranches ++
    field? "milestone" q.milestone ++ field? "reviewApprovedRequired" q.reviewApprovedRequired

/-- What a query searches for, wherever it searches. -/
def search (q : Query) : Query := { q with repos := [] }

/-- Whether two queries are one search, their repositories aside. -/
def sameSearch (p q : Query) : Bool := p.search == q.search

end Query

/-- The status checks that gate a merge. -/
structure ContextRules where
  requiredContexts : Option (ReplaceList String) := none
  optionalContexts : Option (ReplaceList String) := none
  requiredIfPresentContexts : Option (ReplaceList String) := none
  skipUnknownContexts : Option Bool := none
  fromBranchProtection : Option Bool := none
deriving DecidableEq, Inhabited

instance : Schema ContextRules where
  read x := do
    let fs ← Fields.ofReadable
      ["requiredContexts", "optionalContexts", "requiredIfPresentContexts", "skipUnknownContexts",
        "fromBranchProtection"] x
    return {
      requiredContexts := ← fs.optional "requiredContexts"
      optionalContexts := ← fs.optional "optionalContexts"
      requiredIfPresentContexts := ← fs.optional "requiredIfPresentContexts"
      skipUnknownContexts := ← fs.optional "skipUnknownContexts"
      fromBranchProtection := ← fs.optional "fromBranchProtection" }
  write r := .record <|
    field? "requiredContexts" r.requiredContexts ++
    field? "optionalContexts" r.optionalContexts ++
    field? "requiredIfPresentContexts" r.requiredIfPresentContexts ++
    field? "skipUnknownContexts" r.skipUnknownContexts ++
    field? "fromBranchProtection" r.fromBranchProtection

/-- How the merge queue behaves. The first seven fields are settings of the queue as a whole. -/
structure MergeRules where
  syncPeriod : Option String := none
  statusUpdatePeriod : Option String := none
  targetUrl : Option String := none
  prStatusBaseUrl : Option String := none
  blockerLabel : Option String := none
  squashLabel : Option String := none
  maxGoroutines : Option UInt32 := none
  /-- `merge`, `squash` or `rebase`. -/
  mergeMethod : Option String := none
  queries : Option (List Query) := none
  contextPolicy : Option ContextRules := none
deriving DecidableEq, Inhabited

instance : Schema MergeRules where
  read x := do
    let fs ← Fields.ofReadable
      ["syncPeriod", "statusUpdatePeriod", "targetUrl", "prStatusBaseUrl", "blockerLabel",
        "squashLabel", "maxGoroutines", "mergeMethod", "queries", "contextPolicy"] x
    return {
      syncPeriod := ← fs.optional "syncPeriod"
      statusUpdatePeriod := ← fs.optional "statusUpdatePeriod"
      targetUrl := ← fs.optional "targetUrl"
      prStatusBaseUrl := ← fs.optional "prStatusBaseUrl"
      blockerLabel := ← fs.optional "blockerLabel"
      squashLabel := ← fs.optional "squashLabel"
      maxGoroutines := ← fs.optional "maxGoroutines"
      mergeMethod := ← fs.optional "mergeMethod"
      queries := ← fs.optional "queries"
      contextPolicy := ← fs.optional "contextPolicy" }
  write r := .record <|
    field? "syncPeriod" r.syncPeriod ++ field? "statusUpdatePeriod" r.statusUpdatePeriod ++
    field? "targetUrl" r.targetUrl ++ field? "prStatusBaseUrl" r.prStatusBaseUrl ++
    field? "blockerLabel" r.blockerLabel ++ field? "squashLabel" r.squashLabel ++
    field? "maxGoroutines" r.maxGoroutines ++ field? "mergeMethod" r.mergeMethod ++
    field? "queries" r.queries ++ field? "contextPolicy" r.contextPolicy

end SchedulerPolicy
