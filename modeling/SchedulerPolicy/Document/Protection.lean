import SchedulerPolicy.Fragment.Protection

/-!
# Branch protection in the job document

The document holds branch protection as a tree: rules for everything, for an organisation, for a
repository and for a branch. The rules of a node stand beside the children of the node, so a node is
read in two steps: its own keys first, and the rules from whatever other keys there are
(`WireRules.ofEntries`).

`WireRules.ofRules` and `WireRules.toRules` lead from the rules of a fragment to those of the
document and back. A list has no flag here, and an empty list is no list.
-/

namespace SchedulerPolicy

/-- The items of a list that may be absent. -/
def itemsOf {α : Type} (l : Option (ReplaceList α)) : List α := (l.map (·.items)).getD []

/-- A list that does not replace, absent when there are no items. -/
def listOf {α : Type} (items : List α) : Option (ReplaceList α) :=
  if items.isEmpty then none else some { items }

/-- The status checks that have to pass. -/
structure WireStatusChecks where
  contexts : List String := []
  strict : Option Bool := none
deriving DecidableEq, Inhabited

instance : Schema WireStatusChecks where
  read x := do
    let fs ← Fields.ofReadable ["contexts", "strict"] x
    return { contexts := ← fs.getD "contexts" [], strict := ← fs.optional "strict" }
  write c := .record <|
    fieldUnless "contexts" c.contexts.isEmpty c.contexts ++ field? "strict" c.strict

/-- Who may push. -/
structure WireRestrictions where
  users : List String := []
  teams : List String := []
deriving DecidableEq, Inhabited

instance : Schema WireRestrictions where
  read x := do
    let fs ← Fields.ofReadable ["users", "teams"] x
    return { users := ← fs.getD "users" [], teams := ← fs.getD "teams" [] }
  write r := .record <|
    fieldUnless "users" r.users.isEmpty r.users ++ fieldUnless "teams" r.teams.isEmpty r.teams

/-- The reviews that are due. -/
structure WireReviews where
  dismissStaleReviews : Option Bool := none
  requireCodeOwnerReviews : Option Bool := none
  requiredApprovingReviewCount : Option UInt32 := none
deriving DecidableEq, Inhabited

instance : Schema WireReviews where
  read x := do
    let fs ← Fields.ofReadable
      ["dismiss_stale_reviews", "require_code_owner_reviews", "required_approving_review_count"] x
    return {
      dismissStaleReviews := ← fs.optional "dismiss_stale_reviews"
      requireCodeOwnerReviews := ← fs.optional "require_code_owner_reviews"
      requiredApprovingReviewCount := ← fs.optional "required_approving_review_count" }
  write r := .record <|
    field? "dismiss_stale_reviews" r.dismissStaleReviews ++
    field? "require_code_owner_reviews" r.requireCodeOwnerReviews ++
    field? "required_approving_review_count" r.requiredApprovingReviewCount

/-- The rules of one node of the protection tree. -/
structure WireRules where
  protect : Option Bool := none
  requiredStatusChecks : Option WireStatusChecks := none
  enforceAdmins : Option Bool := none
  restrictions : Option WireRestrictions := none
  requiredPullRequestReviews : Option WireReviews := none
  includeBranches : List String := []
  excludeBranches : List String := []
deriving DecidableEq, Inhabited

namespace WireRules

/-- The keys under which the rules of a node stand. -/
def fieldNames : List String :=
  ["protect", "required_status_checks", "enforce_admins", "restrictions",
    "required_pull_request_reviews", "include", "exclude"]

/-- Reads the rules from the fields of a record. -/
def ofFields {ν : Type} [Readable ν] (fs : Fields ν) : Decoded WireRules := do
  return {
    protect := ← fs.optional "protect"
    requiredStatusChecks := ← fs.optional "required_status_checks"
    enforceAdmins := ← fs.optional "enforce_admins"
    restrictions := ← fs.optional "restrictions"
    requiredPullRequestReviews := ← fs.optional "required_pull_request_reviews"
    includeBranches := ← fs.getD "include" []
    excludeBranches := ← fs.getD "exclude" [] }

/-- Reads the rules from the keys that a node does not use itself. -/
def ofEntries (es : List (String × Value)) : Decoded WireRules :=
  match fieldNames.find? (Fields.repeats es) with
  | some name => .error (.repeated name)
  | none => ofFields ⟨es.map fun e => (e.1, Buffered.mk e.2)⟩

/-- The entries of the rules. -/
def toEntries (r : WireRules) : List (String × Value) :=
  field? "protect" r.protect ++ field? "required_status_checks" r.requiredStatusChecks ++
  field? "enforce_admins" r.enforceAdmins ++ field? "restrictions" r.restrictions ++
  field? "required_pull_request_reviews" r.requiredPullRequestReviews ++
  fieldUnless "include" r.includeBranches.isEmpty r.includeBranches ++
  fieldUnless "exclude" r.excludeBranches.isEmpty r.excludeBranches

instance : Schema WireRules where
  read x := do ofFields (← Fields.ofReadable fieldNames x)
  write r := .record r.toEntries

/-- The rules without opinions. -/
def empty : WireRules := {}

/-- Whether the rules say nothing. -/
def isEmpty (r : WireRules) : Bool := r == empty

theorem isEmpty_iff {r : WireRules} : r.isEmpty = true ↔ r = {} := beq_iff_eq

/-- The rules of a fragment as the document has them. -/
def ofRules (r : BranchRules) : WireRules where
  protect := r.protect
  requiredStatusChecks := r.requiredStatusChecks.map fun c =>
    { contexts := itemsOf c.contexts, strict := c.strict }
  enforceAdmins := r.admins
  restrictions := r.restrictions.map fun p => { users := itemsOf p.users, teams := itemsOf p.teams }
  requiredPullRequestReviews := r.requiredPullRequestReviews.map fun v =>
    { dismissStaleReviews := v.dismissStaleReviews
      requireCodeOwnerReviews := v.requireCodeOwnerReviews
      requiredApprovingReviewCount := v.requiredApprovingReviewCount }
  includeBranches := itemsOf r.includeBranches
  excludeBranches := itemsOf r.excludeBranches

/-- The rules of the document as a fragment has them. -/
def toRules (r : WireRules) : BranchRules where
  protect := r.protect
  requiredStatusChecks := r.requiredStatusChecks.map fun c =>
    { contexts := listOf c.contexts, strict := c.strict }
  admins := r.enforceAdmins
  restrictions := r.restrictions.map fun p => { users := listOf p.users, teams := listOf p.teams }
  requiredPullRequestReviews := r.requiredPullRequestReviews.map fun v =>
    { dismissStaleReviews := v.dismissStaleReviews
      requireCodeOwnerReviews := v.requireCodeOwnerReviews
      requiredApprovingReviewCount := v.requiredApprovingReviewCount }
  includeBranches := listOf r.includeBranches
  excludeBranches := listOf r.excludeBranches

end WireRules

/-- The node of a repository. -/
structure RepoProtection where
  policy : WireRules := {}
  branches : Keyed WireRules := ∅
deriving DecidableEq, Inhabited

instance : Schema RepoProtection where
  read x := do
    let fs ← Fields.ofReadable ["branches"] x
    return {
      policy := ← WireRules.ofEntries (← fs.others ["branches"])
      branches := ← fs.getD "branches" ∅ }
  write p := .record <|
    p.policy.toEntries ++ fieldUnless "branches" p.branches.isEmpty p.branches

/-- The node of an organisation. -/
structure OrgProtection where
  policy : WireRules := {}
  repos : Keyed RepoProtection := ∅
deriving DecidableEq, Inhabited

instance : Schema OrgProtection where
  read x := do
    let fs ← Fields.ofReadable ["repos"] x
    return {
      policy := ← WireRules.ofEntries (← fs.others ["repos"])
      repos := ← fs.getD "repos" ∅ }
  write p := .record <| p.policy.toEntries ++ fieldUnless "repos" p.repos.isEmpty p.repos

/-- The whole tree. -/
structure ProtectionTree where
  protectTestedRepos : Option Bool := none
  policy : WireRules := {}
  orgs : Keyed OrgProtection := ∅
deriving DecidableEq, Inhabited

namespace ProtectionTree

/-- The keys of the root of the tree that are no rules. -/
def fieldNames : List String := ["protect-tested-repos", "orgs"]

instance : Schema ProtectionTree where
  read x := do
    let fs ← Fields.ofReadable fieldNames x
    return {
      protectTestedRepos := ← fs.optional "protect-tested-repos"
      policy := ← WireRules.ofEntries (← fs.others fieldNames)
      orgs := ← fs.getD "orgs" ∅ }
  write t := .record <|
    field? "protect-tested-repos" t.protectTestedRepos ++ t.policy.toEntries ++
    fieldUnless "orgs" t.orgs.isEmpty t.orgs

/-- Whether the tree says nothing. -/
def isEmpty (t : ProtectionTree) : Bool :=
  t.protectTestedRepos.isNone && t.policy.isEmpty && t.orgs.isEmpty

/-- The node of a repository, if the tree has it. -/
def repo? (t : ProtectionTree) (org repo : String) : Option RepoProtection := do
  (← t.orgs.get? org).repos.get? repo

end ProtectionTree

end SchedulerPolicy
