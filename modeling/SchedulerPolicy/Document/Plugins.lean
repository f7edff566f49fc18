import SchedulerPolicy.Fragment.Plugins

/-!
# The plugin document

The second of the two documents that the scheduler service reads: which bot plugins a repository
has, and how they behave. The behaviour of a plugin is a list of entries, each with the
repositories that it is for.
-/

namespace SchedulerPolicy

/-- How `approve` behaves for some repositories. -/
structure ApproveEntry where
  repos : List String := []
  issueRequired : Option Bool := none
  requireSelfApproval : Option Bool := none
  lgtmActsAsApprove : Option Bool := none
  ignoreReviewState : Option Bool := none
deriving DecidableEq, Inhabited

namespace ApproveEntry

instance : Schema ApproveEntry where
  read x := do
    let fs ← Fields.ofReadable
      ["repos", "issue_required", "require_self_approval", "lgtm_acts_as_approve",
        "ignore_review_state"] x
    return {
      repos := ← fs.getD "repos" []
      issueRequired := ← fs.optional "issue_required"
      requireSelfApproval := ← fs.optional "require_self_approval"
      lgtmActsAsApprove := ← fs.optional "lgtm_acts_as_approve"
      ignoreReviewState := ← fs.optional "ignore_review_state" }
  write e := .record <|
    field "repos" e.repos ++ field? "issue_required" e.issueRequired ++
    field? "require_self_approval" e.requireSelfApproval ++
    field? "lgtm_acts_as_approve" e.lgtmActsAsApprove ++
    field? "ignore_review_state" e.ignoreReviewState

/-- The entry of one repository. -/
def ofRules (key : String) (r : ApproveRules) : ApproveEntry where
  repos := [key]
  issueRequired := r.issueRequired
  requireSelfApproval := r.requireSelfApproval
  lgtmActsAsApprove := r.lgtmActsAsApprove
  ignoreReviewState := r.ignoreReviewState

/-- The behaviour, whichever the repositories. -/
def toRules (e : ApproveEntry) : ApproveRules where
  issueRequired := e.issueRequired
  requireSelfApproval := e.requireSelfApproval
  lgtmActsAsApprove := e.lgtmActsAsApprove
  ignoreReviewState := e.ignoreReviewState

/-- Whether the entry is for a repository. -/
def names (e : ApproveEntry) (key : String) : Bool := e.repos.contains key

end ApproveEntry

/-- How `lgtm` behaves for some repositories. -/
structure LgtmEntry where
  repos : List String := []
  reviewActsAsLgtm : Option Bool := none
  storeTreeHash : Option Bool := none
  trustedTeamForStickyLgtm : Option String := none
deriving DecidableEq, Inhabited

namespace LgtmEntry

instance : Schema LgtmEntry where
  read x := do
    let fs ← Fields.ofReadable
      ["repos", "review_acts_as_lgtm", "store_tree_hash", "trusted_team_for_sticky_lgtm"] x
    return {
      repos := ← fs.getD "repos" []
      reviewActsAsLgtm := ← fs.optional "review_acts_as_lgtm"
      storeTreeHash := ← fs.optional "store_tree_hash"
      trustedTeamForStickyLgtm := ← fs.optional "trusted_team_for_sticky_lgtm" }
  write e := .record <|
    field "repos" e.repos ++ field? "review_acts_as_lgtm" e.reviewActsAsLgtm ++
    field? "store_tree_hash" e.storeTreeHash ++
    field? "trusted_team_for_sticky_lgtm" e.trustedTeamForStickyLgtm

/-- The entry of one repository. -/
def ofRules (key : String) (r : LgtmRules) : LgtmEntry where
  repos := [key]
  reviewActsAsLgtm := r.reviewActsAsLgtm
  storeTreeHash := r.storeTreeHash
  trustedTeamForStickyLgtm := r.trustedTeamForStickyLgtm

/-- The behaviour, whichever the repositories. -/
def toRules (e : LgtmEntry) : LgtmRules where
  reviewActsAsLgtm := e.reviewActsAsLgtm
  storeTreeHash := e.storeTreeHash
  trustedTeamForStickyLgtm := e.trustedTeamForStickyLgtm

/-- Whether the entry is for a repository. -/
def names (e : LgtmEntry) (key : String) : Bool := e.repos.contains key

end LgtmEntry

/-- How `trigger` behaves for some repositories. -/
structure TriggerEntry where
  repos : List String := []
  trustedOrg : Option String := none
  joinOrgUrl : Option String := none
  onlyOrgMembers : Option Bool := none
  ignoreOkToTest : Option Bool := none
deriving DecidableEq, Inhabited

namespace TriggerEntry

instance : Schema TriggerEntry where
  read x := do
    let fs ← Fields.ofReadable
      ["repos", "trusted_org", "join_org_url", "only_org_members", "ignore_ok_to_test"] x
    return {
      repos := ← fs.getD "repos" []
      trustedOrg := ← fs.optional "trusted_org"
      joinOrgUrl := ← fs.optional "join_org_url"
      onlyOrgMembers := ← fs.optional "only_org_members"
      ignoreOkToTest := ← fs.optional "ignore_ok_to_test" }
  write e := .record <|
    field "repos" e.repos ++ field? "trusted_org" e.trustedOrg ++
    field? "join_org_url" e.joinOrgUrl ++ field? "only_org_members" e.onlyOrgMembers ++
    field? "ignore_ok_to_test" e.ignoreOkToTest

/-- The entry of one repository. -/
def ofRules (key : String) (r : TriggerRules) : TriggerEntry where
  repos := [key]
  trustedOrg := r.trustedOrg
  joinOrgUrl := r.joinOrgUrl
  onlyOrgMembers := r.onlyOrgMembers
  ignoreOkToTest := r.ignoreOkToTest

/-- The behaviour, whichever the repositories. -/
def toRules (e : TriggerEntry) : TriggerRules where
  trustedOrg := e.trustedOrg
  joinOrgUrl := e.joinOrgUrl
  onlyOrgMembers := e.onlyOrgMembers
  ignoreOkToTest := e.ignoreOkToTest

/-- Whether the entry is for a repository. -/
def names (e : TriggerEntry) (key : String) : Bool := e.repos.contains key

end TriggerEntry

/-- What newcomers to some repositories are told. -/
structure WelcomeEntry where
  repos : List String := []
  messageTemplate : String
deriving DecidableEq, Inhabited

namespace WelcomeEntry

instance : Schema WelcomeEntry where
  read x := do
    let fs ← Fields.ofReadable ["repos", "message_template"] x
    return {
      repos := ← fs.getD "repos" []
      messageTemplate := ← fs.required "message_template" }
  write e := .record <| field "repos" e.repos ++ field "message_template" e.messageTemplate

/-- Whether the entry is for a repository. -/
def names (e : WelcomeEntry) (key : String) : Bool := e.repos.contains key

end WelcomeEntry

/-- The files that are published as config maps, by path. -/
structure PublishedTable where
  maps : Keyed ConfigMapTarget := ∅
deriving DecidableEq, Inhabited

namespace PublishedTable

instance : Schema PublishedTable where
  read x := do
    let fs ← Fields.ofReadable ["maps"] x
    return { maps := ← fs.getD "maps" ∅ }
  write t := .record <| fieldUnless "maps" t.maps.isEmpty t.maps

/-- Whether no file is published. -/
def isEmpty (t : PublishedTable) : Bool := t.maps.isEmpty

end PublishedTable

/-- The plugins of every repository and their behaviour. -/
structure PluginDocument where
  plugins : Keyed (List String) := ∅
  externalPlugins : Keyed (List ExternalPlugin) := ∅
  approve : List ApproveEntry := []
  lgtm : List LgtmEntry := []
  triggers : List TriggerEntry := []
  welcome : List WelcomeEntry := []
  configUpdater : PublishedTable := {}
deriving DecidableEq, Inhabited

instance : Schema PluginDocument where
  read x := do
    let fs ← Fields.ofReadable
      ["plugins", "external_plugins", "approve", "lgtm", "triggers", "welcome",
        "config_updater"] x
    return {
      plugins := ← fs.getD "plugins" ∅
      externalPlugins := ← fs.getD "external_plugins" ∅
      approve := ← fs.getD "approve" []
      lgtm := ← fs.getD "lgtm" []
      triggers := ← fs.getD "triggers" []
      welcome := ← fs.getD "welcome" []
      configUpdater := ← fs.getD "config_updater" {} }
  write d := .record <|
    fieldUnless "plugins" d.plugins.isEmpty d.plugins ++
    fieldUnless "external_plugins" d.externalPlugins.isEmpty d.externalPlugins ++
    fieldUnless "approve" d.approve.isEmpty d.approve ++
    fieldUnless "lgtm" d.lgtm.isEmpty d.lgtm ++
    fieldUnless "triggers" d.triggers.isEmpty d.triggers ++
    fieldUnless "welcome" d.welcome.isEmpty d.welcome ++
    fieldUnless "config_updater" d.configUpdater.isEmpty d.configUpdater

end SchedulerPolicy
