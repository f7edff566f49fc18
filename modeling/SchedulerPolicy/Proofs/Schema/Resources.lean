import SchedulerPolicy.Proofs.Schema.Shape
import SchedulerPolicy.Resource

/-!
# The shapes of fragments and resources

Each type is named with its fields, in the order of its declaration, and the way in which each of
them is kept. That a type is read and written so is seen by unfolding, and with the types of its
fields it comes back (`Shape.faithful`, `Shape.settles`). Fields that may be absent are written
whenever they are there, so an empty list or record behind one of them stays; fields with a default
are left out for the default only.

Jobs and the settings of a team keep keys that are no fields (`Job.shape`, `TeamSettings.shape`),
and not every value can stand under such a key. All other parts of a fragment come back whatever
they are, so a fragment comes back when its jobs do (`Fragment.readsBack`).
-/

namespace SchedulerPolicy

namespace RecordField

variable (α : Type) [Schema α] [Settles α]

/-- A list that is written in any case. -/
def list (name : String) : RecordField :=
  defaulted (List α) name [] (readsBack_list (List.forall_mem_nil _))

/-- A list that is left out when it is empty. -/
def listUnlessEmpty (name : String) : RecordField :=
  unlessDefault (List α) name [] List.isEmpty List.isEmpty_iff

/-- A map that is left out when it is empty. -/
def mapUnlessEmpty (name : String) : RecordField :=
  unlessDefault (Keyed α) name ∅ Keyed.isEmpty Keyed.isEmpty_iff_eq

/-- A flag that is left out when it is not set. -/
def flagUnlessUnset (name : String) : RecordField :=
  unlessDefault Bool name false (! ·) (by decide)

variable {α} {name : String}

instance [Faithful α] : (list α name).Total := ⟨fun _ => Faithful.readsBack _⟩

instance [Faithful α] : (listUnlessEmpty α name).Total := ⟨fun _ _ => Faithful.readsBack _⟩

instance [Faithful α] : (mapUnlessEmpty α name).Total := ⟨fun _ _ => Faithful.readsBack _⟩

instance : (flagUnlessUnset name).Total := ⟨fun _ _ => Faithful.readsBack _⟩

end RecordField

/-! ### Jobs and lists -/

/-- The shape of a job. -/
def Job.shape : OpenShape Job where
  fields := [.required String "name", .optional String "context", .optional String "agent",
    .optional Bool "always_run", .optional Bool "optional", .optional String "trigger",
    .optional String "rerun_command", .optional Bool "skip_report",
    .optional String "run_if_changed", .listUnlessEmpty String "branches",
    .listUnlessEmpty String "skip_branches", .optional UInt32 "max_concurrency",
    .optional String "cron", .mapUnlessEmpty String "labels", .mapUnlessEmpty String "annotations"]
  make := Job.mk

instance : Settles Job := Job.shape.settles

instance {α : Type} [Schema α] [Faithful α] : Faithful (ReplaceList α) := Shape.faithful {
  fields := [.list α "items", .flagUnlessUnset "replace"]
  make := ReplaceList.mk
  nodup := show ["items", "replace"].Nodup by decide }

/-- The shape of a set of jobs. -/
def JobSet.shape : Shape JobSet where
  fields := [.list Job "items", .flagUnlessUnset "replace"]
  make := JobSet.mk

instance : Settles JobSet := JobSet.shape.settles

/-- A set of jobs comes back when its jobs do. -/
theorem JobSet.readsBack {s : JobSet} (h : ∀ j ∈ s.items, ReadsBack j) : ReadsBack s :=
  have hmade : MadeOf shape.fields shape.make s _ :=
    -- a flag comes back whatever it is, so the jobs are what is left to ask for
    .cons s.items (readsBack_list h) <|
    .cons s.replace (fun _ => Faithful.readsBack _) <| .nil _
  Shape.readsBack hmade

/-! ### Branch protection -/

instance : Faithful StatusChecks := Shape.faithful {
  fields := [.optional (ReplaceList String) "contexts", .optional Bool "strict"]
  make := StatusChecks.mk }

instance : Faithful PushRestrictions := Shape.faithful {
  fields := [.optional (ReplaceList String) "users", .optional (ReplaceList String) "teams"]
  make := PushRestrictions.mk }

instance : Faithful ReviewRules := Shape.faithful {
  fields := [.optional Bool "dismissStaleReviews", .optional Bool "requireCodeOwnerReviews",
    .optional UInt32 "requiredApprovingReviewCount"]
  make := ReviewRules.mk }

instance : Faithful BranchRules := Shape.faithful {
  fields := [.optional Bool "protect", .optional StatusChecks "requiredStatusChecks",
    .optional Bool "admins", .optional PushRestrictions "restrictions",
    .optional ReviewRules "requiredPullRequestReviews", .optional (ReplaceList String) "include",
    .optional (ReplaceList String) "exclude"]
  make := BranchRules.mk }

instance : Faithful Protection := Shape.faithful {
  fields := [.optional Bool "protectTested", .optional BranchRules "policy",
    .optional (Keyed BranchRules) "branches"]
  make := Protection.mk }

/-! ### Plugins -/

instance : Faithful TriggerRules := Shape.faithful {
  fields := [.optional String "trustedOrg", .optional String "joinOrgUrl",
    .optional Bool "onlyOrgMembers", .optional Bool "ignoreOkToTest"]
  make := TriggerRules.mk }

instance : Faithful ApproveRules := Shape.faithful {
  fields := [.optional Bool "issueRequired", .optional Bool "requireSelfApproval",
    .optional Bool "lgtmActsAsApprove", .optional Bool "ignoreReviewState"]
  make := ApproveRules.mk }

instance : Faithful LgtmRules := Shape.faithful {
  fields := [.optional Bool "reviewActsAsLgtm", .optional Bool "storeTreeHash",
    .optional String "trustedTeamForStickyLgtm"]
  make := LgtmRules.mk }

instance : Faithful ExternalPlugin := Shape.faithful {
  fields := [.required String "name", .optional String "endpoint", .listUnlessEmpty String "events"]
  make := ExternalPlugin.mk }

instance : Faithful ConfigMapTarget := Shape.faithful {
  fields := [.required String "name", .optional String "namespace", .optional String "key"]
  make := ConfigMapTarget.mk }

instance : Faithful PublishedFiles := Shape.faithful {
  fields := [.optional (Keyed ConfigMapTarget) "map"]
  make := PublishedFiles.mk }

instance : Faithful WelcomeMessage := Shape.faithful {
  fields := [.required String "messageTemplate"]
  make := WelcomeMessage.mk }

instance : Faithful Attachment := Shape.faithful {
  fields := [.required String "name", .list String "urls"]
  make := Attachment.mk }

/-! ### The merge queue -/

instance : Faithful Query := Shape.faithful {
  fields := [.listUnlessEmpty String "repos", .listUnlessEmpty String "orgs",
    .listUnlessEmpty String "labels", .listUnlessEmpty String "missingLabels",
    .listUnlessEmpty String "excludedBranches", .listUnlessEmpty String "includedBranches",
    .optional String "milestone", .optional Bool "reviewApprovedRequired"]
  make := Query.mk }

instance : Faithful ContextRules := Shape.faithful {
  fields := [.optional (ReplaceList String) "requiredContexts",
    .optional (ReplaceList String) "optionalContexts",
    .optional (ReplaceList String) "requiredIfPresentContexts",
    .optional Bool "skipUnknownContexts", .optional Bool "fromBranchProtection"]
  make := ContextRules.mk }

instance : Faithful MergeRules := Shape.faithful {
  fields := [.optional String "syncPeriod", .optional String "statusUpdatePeriod",
    .optional String "targetUrl", .optional String "prStatusBaseUrl",
    .optional String "blockerLabel", .optional String "squashLabel",
    .optional UInt32 "maxGoroutines", .optional String "mergeMethod",
    .optional (List Query) "queries", .optional ContextRules "contextPolicy"]
  make := MergeRules.mk }

/-! ### Fragments -/

instance : Faithful Agent := Shape.faithful {
  fields := [.optional String "agent"]
  make := Agent.mk }

/-- The shape of a fragment. -/
def Fragment.shape : Shape Fragment where
  fields := [.optional Agent "schedulerAgent", .optional Protection "policy",
    .optional JobSet "presubmits", .optional JobSet "postsubmits", .optional JobSet "periodics",
    .optional TriggerRules "trigger", .optional ApproveRules "approve", .optional LgtmRules "lgtm",
    .optional (ReplaceList ExternalPlugin) "externalPlugins",
    .optional (ReplaceList String) "plugins", .optional MergeRules "merger",
    .optional PublishedFiles "configUpdater", .optional (ReplaceList WelcomeMessage) "welcome",
    .optional (ReplaceList Attachment) "attachments"]
  make := Fragment.mk

instance : Settles Fragment := Fragment.shape.settles

/-- A fragment comes back when its jobs do. -/
theorem Fragment.readsBack {f : Fragment} (hpresubmits : ∀ s ∈ f.presubmits, ReadsBack s)
    (hpostsubmits : ∀ s ∈ f.postsubmits, ReadsBack s)
    (hperiodics : ∀ s ∈ f.periodics, ReadsBack s) : ReadsBack f :=
  have hmade : MadeOf shape.fields shape.make f _ :=
    -- only the three job sections hold keys that are no fields; the rest is faithful
    .cons f.schedulerAgent (fun _ _ => Faithful.readsBack _) <|
    .cons f.policy (fun _ _ => Faithful.readsBack _) <|
    .cons _ hpresubmits <|
    .cons _ hpostsubmits <|
    .cons _ hperiodics <|
    .cons f.trigger (fun _ _ => Faithful.readsBack _) <|
    .cons f.approve (fun _ _ => Faithful.readsBack _) <|
    .cons f.lgtm (fun _ _ => Faithful.readsBack _) <|
    .cons f.externalPlugins (fun _ _ => Faithful.readsBack _) <|
    .cons f.plugins (fun _ _ => Faithful.readsBack _) <|
    .cons f.merger (fun _ _ => Faithful.readsBack _) <|
    .cons f.configUpdater (fun _ _ => Faithful.readsBack _) <|
    .cons f.welcome (fun _ _ => Faithful.readsBack _) <|
    .cons f.attachments (fun _ _ => Faithful.readsBack _) <| .nil _
  Shape.readsBack hmade

/-! ### Resources -/

instance : Faithful Metadata := Shape.faithful {
  fields := [.required String "name", .optional String "namespace",
    .mapUnlessEmpty String "labels", .mapUnlessEmpty String "annotations"]
  make := Metadata.mk }

/-- The shape of a resource. -/
def Resource.shape (α : Type) [Schema α] [Settles α] : Shape (Resource α) where
  fields := [.required String "apiVersion", .required String "kind", .required Metadata "metadata",
    .required α "spec"]
  make := Resource.mk
  nodup := show ["apiVersion", "kind", "metadata", "spec"].Nodup by decide

instance {α : Type} [Schema α] [Settles α] : Settles (Resource α) := (Resource.shape α).settles

/-- A resource comes back when what it holds does. -/
theorem Resource.readsBack {α : Type} [Schema α] [Settles α] {r : Resource α}
    (h : ReadsBack r.spec) : ReadsBack r :=
  have hmade : MadeOf (shape α).fields (shape α).make r _ :=
    .cons r.apiVersion (Faithful.readsBack _) <| .cons r.kind (Faithful.readsBack _) <|
    .cons r.metadata (Faithful.readsBack _) <| .cons _ h <| .nil _
  Shape.readsBack hmade

instance : Faithful Reference := Shape.faithful {
  fields := [.optional String "kind", .required String "name"]
  make := Reference.mk }

instance : Faithful RepositorySpec := Shape.faithful {
  fields := [.required String "org", .required String "repo", .optional String "provider",
    .optional Reference "scheduler"]
  make := RepositorySpec.mk }

instance : Faithful GroupSpec := Shape.faithful {
  fields := [.list Reference "repositories", .optional Reference "scheduler"]
  make := GroupSpec.mk }

instance : Faithful EnvironmentSource := Shape.faithful {
  fields := [.optional String "url"]
  make := EnvironmentSource.mk }

/-- The shape of the settings of a team. -/
def TeamSettings.shape : OpenShape TeamSettings where
  fields := [.optional Reference "defaultScheduler"]
  make := TeamSettings.mk

instance : Settles TeamSettings := TeamSettings.shape.settles

instance : Settles EnvironmentSpec := Shape.settles {
  fields := [.defaulted EnvironmentSource "source" {} (Faithful.readsBack _),
    .optional TeamSettings "teamSettings"]
  make := EnvironmentSpec.mk }

end SchedulerPolicy
