import SchedulerPolicy.Fragment.Lists

/-!
# Branch protection in a fragment

What a scope wants of the branches of a repository: which checks have to pass, who may push, how
many reviews are due. A fragment gives rules for the repository and further rules for single
branches.
-/

namespace SchedulerPolicy

/-- The status checks that have to pass. -/
structure StatusChecks where
  contexts : Option (ReplaceList String) := none
  strict : Option Bool := none
deriving DecidableEq, Inhabited

instance : Schema StatusChecks where
  read x := do
    let fs ← Fields.ofReadable ["contexts", "strict"] x
    return { contexts := ← fs.optional "contexts", strict := ← fs.optional "strict" }
  write c := .record <| field? "contexts" c.contexts ++ field? "strict" c.strict

/-- Who may push. -/
structure PushRestrictions where
  users : Option (ReplaceList String) := none
  teams : Option (ReplaceList String) := none
deriving DecidableEq, Inhabited

instance : Schema PushRestrictions where
  read x := do
    let fs ← Fields.ofReadable ["users", "teams"] x
    return { users := ← fs.optional "users", teams := ← fs.optional "teams" }
  write r := .record <| field? "users" r.users ++ field? "teams" r.teams

/-- The reviews that are due. -/
structure ReviewRules where
  dismissStaleReviews : Option Bool := none
  requireCodeOwnerReviews : Option Bool := none
  requiredApprovingReviewCount : Option UInt32 := none
deriving DecidableEq, Inhabited

instance : Schema ReviewRules where
  read x := do
    let fs ← Fields.ofReadable
      ["dismissStaleReviews", "requireCodeOwnerReviews", "requiredApprovingReviewCount"] x
    return {
      dismissStaleReviews := ← fs.optional "dismissStaleReviews"
      requireCodeOwnerReviews := ← fs.optional "requireCodeOwnerReviews"
      requiredApprovingReviewCount := ← fs.optional "requiredApprovingReviewCount" }
  write r := .record <|
    field? "dismissStaleReviews" r.dismissStaleReviews ++
    field? "requireCodeOwnerReviews" r.requireCodeOwnerReviews ++
    field? "requiredApprovingReviewCount" r.requiredApprovingReviewCount

/-- The rules for the branches of a repository, or for one of them. -/
structure BranchRules where
  protect : Option Bool := none
  requiredStatusChecks : Option StatusChecks := none
  /-- Whether the rules bind administrators too. -/
  admins : Option Bool := none
  restrictions : Option PushRestrictions := none
  requiredPullRequestReviews : Option ReviewRules := none
  /-- The patterns of the branches that the rules are for. -/
  includeBranches : Option (ReplaceList String) := none
  /-- The patterns of the branches that the rules pass over. -/
  excludeBranches : Option (ReplaceList String) := none
deriving DecidableEq, Inhabited

instance : Schema BranchRules where
  read x := do
    let fs ← Fields.ofReadable
      ["protect", "requiredStatusChecks", "admins", "restrictions", "requiredPullRequestReviews",
        "include", "exclude"] x
    return {
      protect := ← fs.optional "protect"
      requiredStatusChecks := ← fs.optional "requiredStatusChecks"
      admins := ← fs.optional "admins"
      restrictions := ← fs.optional "restrictions"
      requiredPullRequestReviews := ← fs.optional "requiredPullRequestReviews"
      includeBranches := ← fs.optional "include"
      excludeBranches := ← fs.optional "exclude" }
  write r := .record <|
    field? "protect" r.protect ++ field? "requiredStatusChecks" r.requiredStatusChecks ++
    field? "admins" r.admins ++ field? "restrictions" r.restrictions ++
    field? "requiredPullRequestReviews" r.requiredPullRequestReviews ++
    field? "include" r.includeBranches ++ field? "exclude" r.excludeBranches

/-- Branch protection of a repository, with rules for single branches. -/
structure Protection where
  /-- Whether every repository with a presubmit is protected. -/
  protectTested : Option Bool := none
  policy : Option BranchRules := none
  branches : Option (Keyed BranchRules) := none
deriving DecidableEq, Inhabited

instance : Schema Protection where
  read x := do
    let fs ← Fields.ofReadable ["protectTested", "policy", "branches"] x
    return {
      protectTested := ← fs.optional "protectTested"
      policy := ← fs.optional "policy"
      branches := ← fs.optional "branches" }
  write p := .record <|
    field? "protectTested" p.protectTested ++ field? "policy" p.policy ++
    field? "branches" p.branches

end SchedulerPolicy
