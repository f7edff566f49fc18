import SchedulerPolicy.Fragment.Lists

/-!
# Plugin settings in a fragment

How the bot plugins are to behave for a repository: who may trigger jobs, what counts as an
approval, which webhooks are called, which files are published as config maps and what newcomers
are told.
-/

namespace SchedulerPolicy

/-- How the `trigger` plugin behaves. -/
structure TriggerRules where
  trustedOrg : Option String := none
  joinOrgUrl : Option String := none
  onlyOrgMembers : Option Bool := none
  ignoreOkToTest : Option Bool := none
deriving DecidableEq, Inhabited

instance : Schema TriggerRules where
  read x := do
    let fs ← Fields.ofReadable ["trustedOrg", "joinOrgUrl", "onlyOrgMembers", "ignoreOkToTest"] x
    return {
      trustedOrg := ← fs.optional "trustedOrg"
      joinOrgUrl := ← fs.optional "joinOrgUrl"
      onlyOrgMembers := ← fs.optional "onlyOrgMembers"
      ignoreOkToTest := ← fs.optional "ignoreOkToTest" }
  write r := .record <|
    field? "trustedOrg" r.trustedOrg ++ field? "joinOrgUrl" r.joinOrgUrl ++
    field? "onlyOrgMembers" r.onlyOrgMembers ++ field? "ignoreOkToTest" r.ignoreOkToTest

/-- How the `approve` plugin behaves. -/
structure ApproveRules where
  issueRequired : Option Bool := none
  requireSelfApproval : Option Bool := none
  lgtmActsAsApprove : Option Bool := none
  ignoreReviewState : Option Bool := none
deriving DecidableEq, Inhabited

instance : Schema ApproveRules where
  read x := do
    let fs ← Fields.ofReadable
      ["issueRequired", "requireSelfApproval", "lgtmActsAsApprove", "ignoreReviewState"] x
    return {
      issueRequired := ← fs.optional "issueRequired"
      requireSelfApproval := ← fs.optional "requireSelfApproval"
      lgtmActsAsApprove := ← fs.optional "lgtmActsAsApprove"
      ignoreReviewState := ← fs.optional "ignoreReviewState" }
  write r := .record <|
    field? "issueRequired" r.issueRequired ++ field? "requireSelfApproval" r.requireSelfApproval ++
    field? "lgtmActsAsApprove" r.lgtmActsAsApprove ++
    field? "ignoreReviewState" r.ignoreReviewState

/-- How the `lgtm` plugin behaves. -/
structure LgtmRules where
  reviewActsAsLgtm : Option Bool := none
  storeTreeHash : Option Bool := none
  trustedTeamForStickyLgtm : Option String := none
deriving DecidableEq, Inhabited

instance : Schema LgtmRules where
  read x := do
    let fs ← Fields.ofReadable
      ["reviewActsAsLgtm", "storeTreeHash", "trustedTeamForStickyLgtm"] x
    return {
      reviewActsAsLgtm := ← fs.optional "reviewActsAsLgtm"
      storeTreeHash := ← fs.optional "storeTreeHash"
      trustedTeamForStickyLgtm := ← fs.optional "trustedTeamForStickyLgtm" }
  write r := .record <|
    field? "reviewActsAsLgtm" r.reviewActsAsLgtm ++ field? "storeTreeHash" r.storeTreeHash ++
    field? "trustedTeamForStickyLgtm" r.trustedTeamForStickyLgtm

/-- A webhook that receives forwarded events. -/
structure ExternalPlugin where
  name : String
  endpoint : Option String := none
  events : List String := []
deriving DecidableEq, Inhabited

instance : Schema ExternalPlugin where
  read x := do
    let fs ← Fields.ofReadable ["name", "endpoint", "events"] x
    return {
      name := ← fs.required "name"
      endpoint := ← fs.optional "endpoint"
      events := ← fs.getD "events" [] }
  write p := .record <|
    field "name" p.name ++ field? "endpoint" p.endpoint ++
    fieldUnless "events" p.events.isEmpty p.events

/-- The config map as which a file is published. -/
structure ConfigMapTarget where
  name : String
  namespaceName : Option String := none
  key : Option String := none
deriving DecidableEq, Inhabited

instance : Schema ConfigMapTarget where
  read x := do
    let fs ← Fields.ofReadable ["name", "namespace", "key"] x
    return {
      name := ← fs.required "name"
      namespaceName := ← fs.optional "namespace"
      key := ← fs.optional "key" }
  write t := .record <|
    field "name" t.name ++ field? "namespace" t.namespaceName ++ field? "key" t.key

/-- The files that the `config-updater` plugin publishes, by path. -/
structure PublishedFiles where
  map : Option (Keyed ConfigMapTarget) := none
deriving DecidableEq, Inhabited

instance : Schema PublishedFiles where
  read x := do
    let fs ← Fields.ofReadable ["map"] x
    return { map := ← fs.optional "map" }
  write m := .record <| field? "map" m.map

/-- A message for newcomers. -/
structure WelcomeMessage where
  messageTemplate : String
deriving DecidableEq, Inhabited

instance : Schema WelcomeMessage where
  read x := do
    let fs ← Fields.ofReadable ["messageTemplate"] x
    return { messageTemplate := ← fs.required "messageTemplate" }
  write m := .record <| field "messageTemplate" m.messageTemplate

/-- Links attached under a name. -/
structure Attachment where
  name : String
  urls : List String := []
deriving DecidableEq, Inhabited

instance : Schema Attachment where
  read x := do
    let fs ← Fields.ofReadable ["name", "urls"] x
    return { name := ← fs.required "name", urls := ← fs.getD "urls" [] }
  write a := .record <| field "name" a.name ++ field "urls" a.urls

end SchedulerPolicy
