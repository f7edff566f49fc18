import SchedulerPolicy.Document.Protection
import SchedulerPolicy.Fragment.MergeQueue

/-!
# The job document

The first of the two documents that the scheduler service reads: the jobs of every repository,
branch protection, and the settings of the merge queue (`keeper`) and of the job runner (`plank`).
Sections that hold nothing are left out when the document is written.
-/

namespace SchedulerPolicy

/-- The status checks that gate a merge into one repository. -/
structure RepoContexts where
  requiredContexts : List String := []
  optionalContexts : List String := []
  requiredIfPresentContexts : List String := []
  skipUnknownContexts : Option Bool := none
  fromBranchProtection : Option Bool := none
deriving DecidableEq, Inhabited

namespace RepoContexts

instance : Schema RepoContexts where
  read x := do
    let fs ← Fields.ofReadable
      ["required-contexts", "optional-contexts", "required-if-present-contexts",
        "skip-unknown-contexts", "from-branch-protection"] x
    return {
      requiredContexts := ← fs.getD "required-contexts" []
      optionalContexts := ← fs.getD "optional-contexts" []
      requiredIfPresentContexts := ← fs.getD "required-if-present-contexts" []
      skipUnknownContexts := ← fs.optional "skip-unknown-contexts"
      fromBranchProtection := ← fs.optional "from-branch-protection" }
  write c := .record <|
    fieldUnless "required-contexts" c.requiredContexts.isEmpty c.requiredContexts ++
    fieldUnless "optional-contexts" c.optionalContexts.isEmpty c.optionalContexts ++
    fieldUnless "required-if-present-contexts" c.requiredIfPresentContexts.isEmpty
      c.requiredIfPresentContexts ++
    field? "skip-unknown-contexts" c.skipUnknownContexts ++
    field? "from-branch-protection" c.fromBranchProtection

/-- The rules of a fragment as the document has them. -/
def ofRules (r : ContextRules) : RepoContexts where
  requiredContexts := itemsOf r.requiredContexts
  optionalContexts := itemsOf r.optionalContexts
  requiredIfPresentContexts := itemsOf r.requiredIfPresentContexts
  skipUnknownContexts := r.skipUnknownContexts
  fromBranchProtection := r.fromBranchProtection

/-- The rules of the document as a fragment has them. -/
def toRules (c : RepoContexts) : ContextRules where
  requiredContexts := listOf c.requiredContexts
  optionalContexts := listOf c.optionalContexts
  requiredIfPresentContexts := listOf c.requiredIfPresentContexts
  skipUnknownContexts := c.skipUnknownContexts
  fromBranchProtection := c.fromBranchProtection

end RepoContexts

/-- The status checks of an organisation, by repository. -/
structure OrgContexts where
  repos : Keyed RepoContexts := ∅
deriving DecidableEq, Inhabited

instance : Schema OrgContexts where
  read x := do
    let fs ← Fields.ofReadable ["repos"] x
    return { repos := ← fs.getD "repos" ∅ }
  write c := .record <| fieldUnless "repos" c.repos.isEmpty c.repos

/-- The status checks that gate merges, in general and by repository. -/
structure ContextTree where
  fromBranchProtection : Option Bool := none
  skipUnknownContexts : Option Bool := none
  orgs : Keyed OrgContexts := ∅
deriving DecidableEq, Inhabited

namespace ContextTree

instance : Schema ContextTree where
  read x := do
    let fs ← Fields.ofReadable ["from-branch-protection", "skip-unknown-contexts", "orgs"] x
    return {
      fromBranchProtection := ← fs.optional "from-branch-protection"
      skipUnknownContexts := ← fs.optional "skip-unknown-contexts"
      orgs := ← fs.getD "orgs" ∅ }
  write t := .record <|
    field? "from-branch-protection" t.fromBranchProtection ++
    field? "skip-unknown-contexts" t.skipUnknownContexts ++
    fieldUnless "orgs" t.orgs.isEmpty t.orgs

/-- The tree that says nothing. -/
def empty : ContextTree := {}

/-- Whether the tree says nothing. -/
def isEmpty (t : ContextTree) : Bool := t == empty

/-- The checks of a repository, if the tree has them. -/
def repo? (t : ContextTree) (org repo : String) : Option RepoContexts := do
  (← t.orgs.get? org).repos.get? repo

end ContextTree

/-- The merge queue: its searches, the merge method by repository, seven settings of its own, and
the status checks that gate merges. -/
structure Keeper where
  queries : List Query := []
  mergeMethod : Keyed String := ∅
  syncPeriod : Option String := none
  statusUpdatePeriod : Option String := none
  targetUrl : Option String := none
  prStatusBaseUrl : Option String := none
  blockerLabel : Option String := none
  squashLabel : Option String := none
  maxGoroutines : Option UInt32 := none
  contextOptions : ContextTree := {}
deriving DecidableEq, Inhabited

namespace Keeper

instance : Schema Keeper where
  read x := do
    let fs ← Fields.ofReadable
      ["queries", "merge_method", "sync_period", "status_update_period", "target_url",
        "pr_status_base_url", "blocker_label", "squash_label", "max_goroutines",
        "context_options"] x
    return {
      queries := ← fs.getD "queries" []
      mergeMethod := ← fs.getD "merge_method" ∅
      syncPeriod := ← fs.optional "sync_period"
      statusUpdatePeriod := ← fs.optional "status_update_period"
      targetUrl := ← fs.optional "target_url"
      prStatusBaseUrl := ← fs.optional "pr_status_base_url"
      blockerLabel := ← fs.optional "blocker_label"
      squashLabel := ← fs.optional "squash_label"
      maxGoroutines := ← fs.optional "max_goroutines"
      contextOptions := ← fs.getD "context_options" {} }
  write k := .record <|
    fieldUnless "queries" k.queries.isEmpty k.queries ++
    fieldUnless "merge_method" k.mergeMethod.isEmpty k.mergeMethod ++
    field? "sync_period" k.syncPeriod ++ field? "status_update_period" k.statusUpdatePeriod ++
    field? "target_url" k.targetUrl ++ field? "pr_status_base_url" k.prStatusBaseUrl ++
    field? "blocker_label" k.blockerLabel ++ field? "squash_label" k.squashLabel ++
    field? "max_goroutines" k.maxGoroutines ++
    fieldUnless "context_options" k.contextOptions.isEmpty k.contextOptions

/-- The queue that says nothing. -/
def empty : Keeper := {}

/-- Whether the queue says nothing. -/
def isEmpty (k : Keeper) : Bool := k == empty

/-- Whether any of the seven settings of the queue as a whole is set. -/
def hasGlobalSettings (k : Keeper) : Bool :=
  k.syncPeriod.isSome || k.statusUpdatePeriod.isSome || k.targetUrl.isSome ||
    k.prStatusBaseUrl.isSome || k.blockerLabel.isSome || k.squashLabel.isSome ||
    k.maxGoroutines.isSome

end Keeper

/-- The job runner: its report templates, under `*`, an organisation or a repository key. -/
structure Plank where
  reportTemplates : Keyed String := ∅
deriving DecidableEq, Inhabited

namespace Plank

instance : Schema Plank where
  read x := do
    let fs ← Fields.ofReadable ["report_templates"] x
    return { reportTemplates := ← fs.getD "report_templates" ∅ }
  write p := .record <|
    fieldUnless "report_templates" p.reportTemplates.isEmpty p.reportTemplates

/-- Whether there are no settings. -/
def isEmpty (p : Plank) : Bool := p.reportTemplates.isEmpty

end Plank

/-- Jobs, branch protection and merge-queue settings of every repository. -/
structure JobDocument where
  presubmits : Keyed (List Job) := ∅
  postsubmits : Keyed (List Job) := ∅
  periodics : List Job := []
  branchProtection : ProtectionTree := {}
  keeper : Keeper := {}
  plank : Plank := {}
deriving BEq, Inhabited

instance : Schema JobDocument where
  read x := do
    let fs ← Fields.ofReadable
      ["presubmits", "postsubmits", "periodics", "branch-protection", "keeper", "plank"] x
    return {
      presubmits := ← fs.getD "presubmits" ∅
      postsubmits := ← fs.getD "postsubmits" ∅
      periodics := ← fs.getD "periodics" []
      branchProtection := ← fs.getD "branch-protection" {}
      keeper := ← fs.getD "keeper" {}
      plank := ← fs.getD "plank" {} }
  write d := .record <|
    fieldUnless "presubmits" d.presubmits.isEmpty d.presubmits ++
    fieldUnless "postsubmits" d.postsubmits.isEmpty d.postsubmits ++
    fieldUnless "periodics" d.periodics.isEmpty d.periodics ++
    fieldUnless "branch-protection" d.branchProtection.isEmpty d.branchProtection ++
    fieldUnless "keeper" d.keeper.isEmpty d.keeper ++ fieldUnless "plank" d.plank.isEmpty d.plank

end SchedulerPolicy
