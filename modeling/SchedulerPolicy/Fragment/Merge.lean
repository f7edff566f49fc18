import SchedulerPolicy.Fragment.Basic

/-!
# Filling in from lower scopes

A chain of fragments, lowest precedence first, comes down to one effective fragment: the last one
seeds it, and the others fill in from the last but one down to the first, each only what is still
missing (`Fragment.build`). How a field is filled is decided by its type, in one instance of `Fill`
for each:

* an absent field takes over the donor's, a present one is filled in turn;
* a scalar that is set stays;
* a `ReplaceList` takes the donor's missing items, a `JobSet` the donor's jobs of new names, and
  both stop once a list that replaces has been taken over;
* a map takes the donor's new keys;
* a list of queries shares one entry among the queries with one search.

Only a job set can fail to be filled, when it holds a name twice that the donor uses too: there is
then no telling which of its jobs the donor's stands behind. `AmbiguousJob` says where.

Fragments of one precedence are peers (`Fragment.buildPeers`). They come down to one fragment in the
same way, but first a job name that two of them define differently is refused.
-/

namespace SchedulerPolicy

/-- A job name that stands for several jobs: where, which, and for how many. -/
structure AmbiguousJob where
  path : String
  name : String
  count : Nat
deriving DecidableEq, Repr

namespace AmbiguousJob

/-- The same finding, seen from the record that holds the field. -/
def within (name : String) (e : AmbiguousJob) : AmbiguousJob :=
  { e with path := if e.path.isEmpty then name else name ++ "." ++ e.path }

/-- The finding in words. -/
def message (e : AmbiguousJob) : String :=
  "ambiguous merge at '" ++ e.path ++ "': " ++ toString e.count ++ " jobs named '" ++ e.name ++
    "' at the same precedence"

end AmbiguousJob

/-- What filling in results in. -/
abbrev Filled (α : Type) := Except AmbiguousJob α

/-- A type whose values can be filled in from a donor of lower precedence. -/
class Fill (α : Type) where
  fill : α → α → Filled α

export Fill (fill)

/-- Fills in one field of a record, under the name that findings in the field are reported with. -/
def fillField {α : Type} [Fill α] (name : String) (own donor : α) : Filled α :=
  (fill own donor).mapError (·.within name)

/-! ### Scalars and optional fields -/

instance : Fill String := ⟨fun own _ => .ok own⟩

instance : Fill Bool := ⟨fun own _ => .ok own⟩

instance : Fill UInt32 := ⟨fun own _ => .ok own⟩

/-- An absent field takes over the donor's as a whole. -/
instance {α : Type} [Fill α] : Fill (Option α) where
  fill
    | own, none => .ok own
    | none, some donor => .ok (some donor)
    | some own, some donor => some <$> fill own donor

/-! ### Lists, job sets and maps -/

/-- A list followed by the items of another that it does not hold yet. -/
def appendMissing {α : Type} [BEq α] (own donor : List α) : List α :=
  donor.foldl (fun items x => if items.contains x then items else items ++ [x]) own

/-- A list that replaces stays as it is; any other takes the missing items, and the flag with them.
-/
instance {α : Type} [BEq α] : Fill (ReplaceList α) where
  fill own donor :=
    .ok <| if own.replace then own
      else { items := appendMissing own.items donor.items, replace := donor.replace }

namespace JobSet

/-- Adds a job unless there is one of its name. Two of its name leave no answer. -/
def addMissing (items : List Job) (job : Job) : Filled (List Job) :=
  match (items.filter (·.name == job.name)).length with
  | 0 => .ok (items ++ [job])
  | 1 => .ok items
  | n + 2 => .error { path := "", name := job.name, count := n + 2 }

/-- Job sets are filled like lists, with jobs matched by name. -/
instance : Fill JobSet where
  fill own donor :=
    if own.replace then .ok own
    else do
      let items ← donor.items.foldlM addMissing own.items
      return { items := items, replace := donor.replace }

end JobSet

/-- A map takes the donor's new keys; the values of its own keys stay as they are. -/
instance {α : Type} : Fill (Keyed α) where
  fill own donor := .ok (donor.entries.foldl (fun m e => m.insertNew e.1 e.2) own)

/-- Adds a query to a list: its repositories join the first entry with the same search, and without
one it becomes an entry of its own. -/
def foldQuery : List Query → Query → List Query
  | [], q => [q]
  | p :: rest, q =>
    if p.sameSearch q then { p with repos := appendMissing p.repos q.repos } :: rest
    else p :: foldQuery rest q

instance : Fill (List Query) := ⟨fun own donor => .ok (donor.foldl foldQuery own)⟩

/-! ### Records -/

instance : Fill Agent where
  fill own donor := do
    return { agent := ← fillField "agent" own.agent donor.agent }

instance : Fill StatusChecks where
  fill own donor := do
    return {
      contexts := ← fillField "contexts" own.contexts donor.contexts
      strict := ← fillField "strict" own.strict donor.strict }

instance : Fill PushRestrictions where
  fill own donor := do
    return {
      users := ← fillField "users" own.users donor.users
      teams := ← fillField "teams" own.teams donor.teams }

instance : Fill ReviewRules where
  fill own donor := do
    return {
      dismissStaleReviews :=
        ← fillField "dismiss_stale_reviews" own.dismissStaleReviews donor.dismissStaleReviews
      requireCodeOwnerReviews :=
        ← fillField "require_code_owner_reviews" own.requireCodeOwnerReviews
          donor.requireCodeOwnerReviews
      requiredApprovingReviewCount :=
        ← fillField "required_approving_review_count" own.requiredApprovingReviewCount
          donor.requiredApprovingReviewCount }

instance : Fill BranchRules where
  fill own donor := do
    return {
      protect := ← fillField "protect" own.protect donor.protect
      requiredStatusChecks :=
        ← fillField "required_status_checks" own.requiredStatusChecks donor.requiredStatusChecks
      admins := ← fillField "admins" own.admins donor.admins
      restrictions := ← fillField "restrictions" own.restrictions donor.restrictions
      requiredPullRequestReviews :=
        ← fillField "required_pull_request_reviews" own.requiredPullRequestReviews
          donor.requiredPullRequestReviews
      includeBranches := ← fillField "include" own.includeBranches donor.includeBranches
      excludeBranches := ← fillField "exclude" own.excludeBranches donor.excludeBranches }

instance : Fill Protection where
  fill own donor := do
    return {
      protectTested := ← fillField "protect_tested" own.protectTested donor.protectTested
      policy := ← fillField "policy" own.policy donor.policy
      branches := ← fillField "branches" own.branches donor.branches }

instance : Fill TriggerRules where
  fill own donor := do
    return {
      trustedOrg := ← fillField "trusted_org" own.trustedOrg donor.trustedOrg
      joinOrgUrl := ← fillField "join_org_url" own.joinOrgUrl donor.joinOrgUrl
      onlyOrgMembers := ← fillField "only_org_members" own.onlyOrgMembers donor.onlyOrgMembers
      ignoreOkToTest := ← fillField "ignore_ok_to_test" own.ignoreOkToTest donor.ignoreOkToTest }

instance : Fill ApproveRules where
  fill own donor := do
    return {
      issueRequired := ← fillField "issue_required" own.issueRequired donor.issueRequired
      requireSelfApproval :=
        ← fillField "require_self_approval" own.requireSelfApproval donor.requireSelfApproval
      lgtmActsAsApprove :=
        ← fillField "lgtm_acts_as_approve" own.lgtmActsAsApprove donor.lgtmActsAsApprove
      ignoreReviewState :=
        ← fillField "ignore_review_state" own.ignoreReviewState donor.ignoreReviewState }

instance : Fill LgtmRules where
  fill own donor := do
    return {
      reviewActsAsLgtm :=
        ← fillField "review_acts_as_lgtm" own.reviewActsAsLgtm donor.reviewActsAsLgtm
      storeTreeHash := ← fillField "store_tree_hash" own.storeTreeHash donor.storeTreeHash
      trustedTeamForStickyLgtm :=
        ← fillField "trusted_team_for_sticky_lgtm" own.trustedTeamForStickyLgtm
          donor.trustedTeamForStickyLgtm }

instance : Fill ContextRules where
  fill own donor := do
    return {
      requiredContexts :=
        ← fillField "required_contexts" own.requiredContexts donor.requiredContexts
      optionalContexts :=
        ← fillField "optional_contexts" own.optionalContexts donor.optionalContexts
      requiredIfPresentContexts :=
        ← fillField "required_if_present_contexts" own.requiredIfPresentContexts
          donor.requiredIfPresentContexts
      skipUnknownContexts :=
        ← fillField "skip_unknown_contexts" own.skipUnknownContexts donor.skipUnknownContexts
      fromBranchProtection :=
        ← fillField "from_branch_protection" own.fromBranchProtection donor.fromBranchProtection }

instance : Fill MergeRules where
  fill own donor := do
    return {
      syncPeriod := ← fillField "sync_period" own.syncPeriod donor.syncPeriod
      statusUpdatePeriod :=
        ← fillField "status_update_period" own.statusUpdatePeriod donor.statusUpdatePeriod
      targetUrl := ← fillField "target_url" own.targetUrl donor.targetUrl
      prStatusBaseUrl :=
        ← fillField "pr_status_base_url" own.prStatusBaseUrl donor.prStatusBaseUrl
      blockerLabel := ← fillField "blocker_label" own.blockerLabel donor.blockerLabel
      squashLabel := ← fillField "squash_label" own.squashLabel donor.squashLabel
      maxGoroutines := ← fillField "max_goroutines" own.maxGoroutines donor.maxGoroutines
      mergeMethod := ← fillField "merge_method" own.mergeMethod donor.mergeMethod
      queries := ← fillField "queries" own.queries donor.queries
      contextPolicy := ← fillField "context_policy" own.contextPolicy donor.contextPolicy }

instance : Fill PublishedFiles where
  fill own donor := do
    return { map := ← fillField "map" own.map donor.map }

instance : Fill Fragment where
  fill own donor := do
    return {
      schedulerAgent := ← fillField "scheduler_agent" own.schedulerAgent donor.schedulerAgent
      policy := ← fillField "policy" own.policy donor.policy
      presubmits := ← fillField "presubmits" own.presubmits donor.presubmits
      postsubmits := ← fillField "postsubmits" own.postsubmits donor.postsubmits
      periodics := ← fillField "periodics" own.periodics donor.periodics
      trigger := ← fillField "trigger" own.trigger donor.trigger
      approve := ← fillField "approve" own.approve donor.approve
      lgtm := ← fillField "lgtm" own.lgtm donor.lgtm
      externalPlugins := ← fillField "external_plugins" own.externalPlugins donor.externalPlugins
      plugins := ← fillField "plugins" own.plugins donor.plugins
      merger := ← fillField "merger" own.merger donor.merger
      configUpdater := ← fillField "config_updater" own.configUpdater donor.configUpdater
      welcome := ← fillField "welcome" own.welcome donor.welcome
      attachments := ← fillField "attachments" own.attachments donor.attachments }

/-! ### Chains -/

namespace Fragment

/-- The effective fragment of a chain, lowest precedence first. -/
def build (chain : List Fragment) : Filled Fragment :=
  match chain.reverse with
  | [] => .ok ∅
  | seed :: donors => donors.foldlM fill seed

/-- The sections of a fragment that hold jobs. -/
inductive JobSection where
  | presubmits
  | postsubmits
  | periodics
deriving DecidableEq, Repr

namespace JobSection

/-- The name of the section's field. -/
def name : JobSection → String
  | .presubmits => "presubmits"
  | .postsubmits => "postsubmits"
  | .periodics => "periodics"

/-- The section of a fragment, if the fragment has it. -/
def jobs? : JobSection → Fragment → Option JobSet
  | .presubmits, f => f.presubmits
  | .postsubmits, f => f.postsubmits
  | .periodics, f => f.periodics

/-- The sections in the order in which they are searched. -/
def all : List JobSection := [.presubmits, .postsubmits, .periodics]

/-- Every job that the fragments define in a section, by name and in order. -/
def definitions (s : JobSection) (peers : List Fragment) : Keyed (List Job) :=
  let jobs := (peers.filterMap s.jobs?).flatMap (·.items)
  jobs.foldl (fun m job => m.alter job.name fun earlier => earlier.getD [] ++ [job]) ∅

/-- Whether several definitions of one name differ. -/
def differ : List Job → Bool
  | [] => false
  | first :: others => others.any fun job => !(job == first)

/-- The first name of a section, in the order of names, that the fragments define differently. -/
def collision? (s : JobSection) (peers : List Fragment) : Option AmbiguousJob :=
  ((s.definitions peers).entries.find? fun e => differ e.2).map fun e =>
    { path := s.name, name := e.1, count := e.2.length }

end JobSection

/-- The effective fragment of fragments of one precedence, lowest first. A job name that two of them
define differently is refused. -/
def buildPeers (peers : List Fragment) : Filled Fragment :=
  match JobSection.all.findSome? (·.collision? peers) with
  | some e => .error e
  | none => build peers

end Fragment

end SchedulerPolicy
