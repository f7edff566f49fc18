import SchedulerPolicy.Proofs.Merge.AppendNew
import SchedulerPolicy.Proofs.Steps

/-!
# What filling in results in

`fill own donor` may fail, and every record it goes through passes the failure on. What it results
in when it does not fail needs no mention of failures: `onto own donor` is the own value laid over
the donor's. This file defines `onto` for every type that is filled in and relates the two.

* All types but two are filled in without fail (`TotalFill`), and then `fill own donor` is
  `onto own donor`.
* A job set is filled in exactly when no name of the donor stands for two own jobs; the names that
  do are all listed, and the first of them is the fault (`JobSet.fill_eq`). A fragment is filled in
  exactly when its three job sections are (`Fragment.fill_eq`).

A field of a record laid over another is the field laid over the field, by definition. Whatever is
said about a field of a chain of fragments is therefore a statement about the chain of the field's
values, and needs no look at the other fields.
-/

namespace SchedulerPolicy

/-- A type whose values can be laid over others of lower precedence. -/
class Onto (α : Type) where
  onto : α → α → α

export Onto (onto)

/-- A type that is filled in without fail. -/
class TotalFill (α : Type) [Fill α] [Onto α] : Prop where
  fill_eq (own donor : α) : fill own donor = .ok (onto own donor)

export TotalFill (fill_eq)

theorem fillField_eq_ok_iff {α : Type} [Fill α] {name : String} {own donor r : α} :
    fillField name own donor = .ok r ↔ fill own donor = .ok r := by
  unfold fillField
  cases fill own donor with
  | error e => exact ⟨nofun, nofun⟩
  | ok a => rfl

theorem fillField_eq {α : Type} [Fill α] [Onto α] [TotalFill α] (name : String) (own donor : α) :
    fillField name own donor = .ok (onto own donor) :=
  fillField_eq_ok_iff.2 (fill_eq own donor)

/-! ### Scalars and optional fields -/

instance : Onto String := ⟨fun own _ => own⟩

instance : Onto Bool := ⟨fun own _ => own⟩

instance : Onto UInt32 := ⟨fun own _ => own⟩

instance : TotalFill String := ⟨fun _ _ => rfl⟩

instance : TotalFill Bool := ⟨fun _ _ => rfl⟩

instance : TotalFill UInt32 := ⟨fun _ _ => rfl⟩

section Optional

variable {α : Type} [Onto α]

/-- An absent value lets the other through as it is. -/
instance : Onto (Option α) where
  onto
    | own, none => own
    | none, some donor => some donor
    | some own, some donor => some (onto own donor)

@[simp] theorem onto_none (own : Option α) : onto own none = own := by
  cases own <;> rfl

@[simp] theorem none_onto (donor : Option α) : onto none donor = donor := by
  cases donor <;> rfl

@[simp] theorem some_onto_some (own donor : α) :
    onto (some own) (some donor) = some (onto own donor) := rfl

/-- Something is present when it is present on either side. -/
theorem isSome_onto (own donor : Option α) :
    (onto own donor).isSome = (own.isSome || donor.isSome) := by
  cases own <;> cases donor <;> rfl

/-- What is absent after it has been filled in was absent before. -/
theorem eq_none_of_onto {own donor : Option α} (h : onto own donor = none) : own = none := by
  have hsome : (own.isSome || donor.isSome) = false := by
    rw [← isSome_onto, h]
    rfl
  exact Option.isNone_iff_eq_none.1 (Option.isSome_eq_false_iff.1 (Bool.or_eq_false_iff.1 hsome).1)

/-- What is found in optional records combines as what is found in the records does, when an absent
value is neutral. -/
theorem bind_onto {β : Type} {get : α → Option β} {c : Option β → Option β → Option β}
    (hleft : ∀ x, c none x = x) (hright : ∀ x, c x none = x)
    (hget : ∀ a b, get (onto a b) = c (get a) (get b)) (x y : Option α) :
    (onto x y).bind get = c (x.bind get) (y.bind get) := by
  cases x with
  | none => rw [none_onto, Option.bind_none, hleft]
  | some a =>
    cases y with
    | none => rw [onto_none, Option.bind_none, hright]
    | some b => exact hget a b

instance [Fill α] [TotalFill α] : TotalFill (Option α) where
  fill_eq own donor := by
    -- only two values that are both there are filled in, and that does not fail
    cases donor with
    | none => cases own <;> rfl
    | some d =>
      cases own with
      | none => rfl
      | some o =>
        change some <$> fill o d = _
        rw [fill_eq]
        rfl

end Optional

/-! ### Lists, maps and queries -/

/-- A list that replaces hides the other. -/
instance {α : Type} [BEq α] : Onto (ReplaceList α) where
  onto own donor :=
    if own.replace then own
    else { items := appendMissing own.items donor.items, replace := donor.replace }

instance {α : Type} [BEq α] : TotalFill (ReplaceList α) := ⟨fun _ _ => rfl⟩

instance {α : Type} : Onto (Keyed α) where
  onto own donor := donor.entries.foldl (fun m e => m.insertNew e.1 e.2) own

instance {α : Type} : TotalFill (Keyed α) := ⟨fun _ _ => rfl⟩

instance : Onto (List Query) := ⟨fun own donor => donor.foldl foldQuery own⟩

instance : TotalFill (List Query) := ⟨fun _ _ => rfl⟩

/-! ### Job sets -/

namespace JobSet

instance : Onto JobSet where
  onto own donor :=
    if own.replace then own
    else { items := appendNew Job.name own.items donor.items, replace := donor.replace }

/-- What stands in the way of adding a job to others: several of them have its name. -/
def ambiguity? (path : String) (items : List Job) (job : Job) : Option AmbiguousJob :=
  let count := (items.filter (·.name == job.name)).length
  if 2 ≤ count then some { path, name := job.name, count } else none

theorem addMissing_eq (items : List Job) (job : Job) :
    addMissing items job =
      outcome (ambiguity? "" items job).toList (addNew Job.name items job) := by
  unfold addMissing ambiguity?
  split
  · -- no job has the name, so it is new
    next h =>
    have hnew : job.name ∉ items.map Job.name := by
      intro hmem
      obtain ⟨j, hj, hname⟩ := List.mem_map.1 hmem
      rw [List.length_eq_zero_iff, List.filter_eq_nil_iff] at h
      exact h j hj (by rw [hname, beq_self_eq_true])
    rw [addNew_of_not_mem hnew, h]
    rfl
  · -- one job has it, and stays
    next h =>
    have hmem : job.name ∈ items.map Job.name := by
      obtain ⟨j, hj⟩ := List.length_pos_iff_exists_mem.1 (h ▸ Nat.one_pos)
      obtain ⟨hj', hname⟩ := List.mem_filter.1 hj
      exact List.mem_map.2 ⟨j, hj', beq_iff_eq.1 hname⟩
    rw [addNew_of_mem hmem, h]
    rfl
  · next n h =>
    rw [h, if_pos (Nat.le_add_left 2 n)]
    rfl

/-- **Adding a job never makes a name ambiguous**, nor does it change how many jobs an ambiguous
name stands for. -/
theorem ambiguity?_addNew (path : String) (items : List Job) (x job : Job) :
    ambiguity? path (addNew Job.name items x) job = ambiguity? path items job := by
  by_cases h : x.name ∈ items.map Job.name
  · rw [addNew_of_mem h]
  · unfold ambiguity?
    rw [addNew_of_not_mem h, List.filter_append]
    -- the job comes to a name that has none, or to another name
    by_cases hname : x.name = job.name
    · have hnil : items.filter (·.name == job.name) = [] := by
        refine List.filter_eq_nil_iff.2 fun j hj hjn => h ?_
        exact List.mem_map.2 ⟨j, hj, by rw [hname]; exact beq_iff_eq.1 hjn⟩
      rw [hnil, List.filter_cons_of_pos (by rw [hname, beq_self_eq_true])]
      rfl
    · rw [List.filter_cons_of_neg (by rwa [beq_iff_eq]), List.filter_nil, List.append_nil]

theorem ambiguity?_appendNew (path : String) (items donor : List Job) (job : Job) :
    ambiguity? path (appendNew Job.name items donor) job = ambiguity? path items job := by
  induction donor generalizing items with
  | nil => rfl
  | cons x donor ih => rw [appendNew_cons, ih, ambiguity?_addNew]

/-- The jobs of a donor are added to jobs that grow, and yet run into what was there at first. -/
theorem foldlM_addMissing_eq (own donor : List Job) :
    donor.foldlM addMissing own =
      outcome (donor.filterMap (ambiguity? "" own)) (appendNew Job.name own donor) := by
  induction donor generalizing own with
  | nil => rfl
  | cons job donor ih =>
    -- the job that is added does not change what the later ones run into
    have hrest : ambiguity? "" (addNew Job.name own job) = ambiguity? "" own :=
      funext (ambiguity?_addNew "" own job)
    have hfaults : (job :: donor).filterMap (ambiguity? "" own) =
        (ambiguity? "" own job).toList ++ donor.filterMap (ambiguity? "" own) := by
      rw [List.filterMap_cons]
      cases ambiguity? "" own job <;> rfl
    rw [List.foldlM_cons, addMissing_eq, hfaults, appendNew_cons]
    refine outcome_bind ?_
    rw [ih, hrest]

/-- What stands in the way of filling in a job set from another. -/
def ambiguities (path : String) (own donor : JobSet) : List AmbiguousJob :=
  if own.replace then [] else donor.items.filterMap (ambiguity? path own.items)

/-- **When job sets are filled in, and what with.** -/
theorem fill_eq (own donor : JobSet) :
    fill own donor = outcome (own.ambiguities "" donor) (onto own donor) := by
  simp only [fill, onto, ambiguities]
  -- a set that replaces runs into nothing, whatever the donor has
  by_cases hr : own.replace = true
  · rw [if_pos hr, if_pos hr, if_pos hr]
    rfl
  · rw [if_neg hr, if_neg hr, if_neg hr, foldlM_addMissing_eq]
    cases donor.items.filterMap (ambiguity? "" own.items) <;> rfl

/-- No name of the donor stands for two own jobs, or the donor's jobs do not matter. -/
def Unambiguous (own donor : JobSet) : Prop :=
  own.replace = true ∨ ∀ job ∈ donor.items, (own.named job.name).length ≤ 1

theorem ambiguities_eq_nil_iff {path : String} {own donor : JobSet} :
    own.ambiguities path donor = [] ↔ own.Unambiguous donor := by
  unfold ambiguities Unambiguous
  by_cases hr : own.replace = true
  · rw [if_pos hr]
    exact iff_of_true rfl (Or.inl hr)
  · rw [if_neg hr, List.filterMap_eq_nil_iff, or_iff_right hr]
    refine forall_congr' fun job => imp_congr_right fun _ => ?_
    -- an ambiguity is a count of two or more
    change (if 2 ≤ (own.named job.name).length then some _ else none) = none ↔ _
    rw [ite_eq_right_iff]
    constructor
    · intro h
      refine Nat.le_of_not_lt fun hlt => ?_
      cases h hlt
    · intro h hlt
      exact absurd h (Nat.not_le.2 hlt)

/-- The section is named once, in front of whatever stands in the way. -/
theorem map_within_ambiguities (name : String) (own donor : JobSet) :
    (own.ambiguities "" donor).map (·.within name) = own.ambiguities name donor := by
  unfold ambiguities
  split
  · rfl
  · rw [List.map_filterMap]
    congr 1
    funext job
    unfold ambiguity?
    dsimp only
    split <;> rfl

end JobSet

/-- What stands in the way of filling in one optional job set from another. -/
def optionAmbiguities (path : String) : Option JobSet → Option JobSet → List AmbiguousJob
  | some own, some donor => own.ambiguities path donor
  | _, _ => []

/-- Whether one optional job set can be filled in from another. -/
def OptionUnambiguous (own donor : Option JobSet) : Prop :=
  ∀ a ∈ own, ∀ b ∈ donor, a.Unambiguous b

theorem optionAmbiguities_eq_nil_iff {path : String} {own donor : Option JobSet} :
    optionAmbiguities path own donor = [] ↔ OptionUnambiguous own donor := by
  unfold OptionUnambiguous
  cases own with
  | none => exact iff_of_true rfl nofun
  | some a =>
    cases donor with
    | none => exact iff_of_true rfl nofun
    | some b =>
      rw [optionAmbiguities, JobSet.ambiguities_eq_nil_iff]
      exact ⟨fun h x hx y hy => Option.some.inj hx ▸ Option.some.inj hy ▸ h, fun h => h a rfl b rfl⟩

/-- A section of jobs is filled in like a job set, with its name in front. -/
theorem fillField_jobs_eq (name : String) (own donor : Option JobSet) :
    fillField name own donor = outcome (optionAmbiguities name own donor) (onto own donor) := by
  cases own with
  | none => cases donor <;> rfl
  | some a =>
    cases donor with
    | none => rfl
    | some b =>
      -- with jobs on both sides there is something to fill in, and something to name
      have hmap : fill (some a) (some b) = outcome (a.ambiguities "" b) (some (onto a b)) := by
        change some <$> fill a b = _
        rw [JobSet.fill_eq]
        cases a.ambiguities "" b <;> rfl
      unfold fillField
      rw [hmap, mapError_outcome, JobSet.map_within_ambiguities]
      rfl

/-! ### Records -/

instance : Onto Agent where
  onto own donor := { agent := onto own.agent donor.agent }

instance : Onto StatusChecks where
  onto own donor := {
    contexts := onto own.contexts donor.contexts
    strict := onto own.strict donor.strict }

instance : Onto PushRestrictions where
  onto own donor := {
    users := onto own.users donor.users
    teams := onto own.teams donor.teams }

instance : Onto ReviewRules where
  onto own donor := {
    dismissStaleReviews := onto own.dismissStaleReviews donor.dismissStaleReviews
    requireCodeOwnerReviews := onto own.requireCodeOwnerReviews donor.requireCodeOwnerReviews
    requiredApprovingReviewCount :=
      onto own.requiredApprovingReviewCount donor.requiredApprovingReviewCount }

instance : Onto BranchRules where
  onto own donor := {
    protect := onto own.protect donor.protect
    requiredStatusChecks := onto own.requiredStatusChecks donor.requiredStatusChecks
    admins := onto own.admins donor.admins
    restrictions := onto own.restrictions donor.restrictions
    requiredPullRequestReviews :=
      onto own.requiredPullRequestReviews donor.requiredPullRequestReviews
    includeBranches := onto own.includeBranches donor.includeBranches
    excludeBranches := onto own.excludeBranches donor.excludeBranches }

instance : Onto Protection where
  onto own donor := {
    protectTested := onto own.protectTested donor.protectTested
    policy := onto own.policy donor.policy
    branches := onto own.branches donor.branches }

instance : Onto TriggerRules where
  onto own donor := {
    trustedOrg := onto own.trustedOrg donor.trustedOrg
    joinOrgUrl := onto own.joinOrgUrl donor.joinOrgUrl
    onlyOrgMembers := onto own.onlyOrgMembers donor.onlyOrgMembers
    ignoreOkToTest := onto own.ignoreOkToTest donor.ignoreOkToTest }

instance : Onto ApproveRules where
  onto own donor := {
    issueRequired := onto own.issueRequired donor.issueRequired
    requireSelfApproval := onto own.requireSelfApproval donor.requireSelfApproval
    lgtmActsAsApprove := onto own.lgtmActsAsApprove donor.lgtmActsAsApprove
    ignoreReviewState := onto own.ignoreReviewState donor.ignoreReviewState }

instance : Onto LgtmRules where
  onto own donor := {
    reviewActsAsLgtm := onto own.reviewActsAsLgtm donor.reviewActsAsLgtm
    storeTreeHash := onto own.storeTreeHash donor.storeTreeHash
    trustedTeamForStickyLgtm :=
      onto own.trustedTeamForStickyLgtm donor.trustedTeamForStickyLgtm }

instance : Onto ContextRules where
  onto own donor := {
    requiredContexts := onto own.requiredContexts donor.requiredContexts
    optionalContexts := onto own.optionalContexts donor.optionalContexts
    requiredIfPresentContexts :=
      onto own.requiredIfPresentContexts donor.requiredIfPresentContexts
    skipUnknownContexts := onto own.skipUnknownContexts donor.skipUnknownContexts
    fromBranchProtection := onto own.fromBranchProtection donor.fromBranchProtection }

instance : Onto MergeRules where
  onto own donor := {
    syncPeriod := onto own.syncPeriod donor.syncPeriod
    statusUpdatePeriod := onto own.statusUpdatePeriod donor.statusUpdatePeriod
    targetUrl := onto own.targetUrl donor.targetUrl
    prStatusBaseUrl := onto own.prStatusBaseUrl donor.prStatusBaseUrl
    blockerLabel := onto own.blockerLabel donor.blockerLabel
    squashLabel := onto own.squashLabel donor.squashLabel
    maxGoroutines := onto own.maxGoroutines donor.maxGoroutines
    mergeMethod := onto own.mergeMethod donor.mergeMethod
    queries := onto own.queries donor.queries
    contextPolicy := onto own.contextPolicy donor.contextPolicy }

instance : Onto PublishedFiles where
  onto own donor := { map := onto own.map donor.map }

instance : TotalFill Agent where
  fill_eq _ _ := by
    simp only [fill, fillField_eq]
    rfl

instance : TotalFill StatusChecks where
  fill_eq _ _ := by
    simp only [fill, fillField_eq]
    rfl

instance : TotalFill PushRestrictions where
  fill_eq _ _ := by
    simp only [fill, fillField_eq]
    rfl

instance : TotalFill ReviewRules where
  fill_eq _ _ := by
    simp only [fill, fillField_eq]
    rfl

instance : TotalFill BranchRules where
  fill_eq _ _ := by
    simp only [fill, fillField_eq]
    rfl

instance : TotalFill Protection where
  fill_eq _ _ := by
    simp only [fill, fillField_eq]
    rfl

instance : TotalFill TriggerRules where
  fill_eq _ _ := by
    simp only [fill, fillField_eq]
    rfl

instance : TotalFill ApproveRules where
  fill_eq _ _ := by
    simp only [fill, fillField_eq]
    rfl

instance : TotalFill LgtmRules where
  fill_eq _ _ := by
    simp only [fill, fillField_eq]
    rfl

instance : TotalFill ContextRules where
  fill_eq _ _ := by
    simp only [fill, fillField_eq]
    rfl

instance : TotalFill MergeRules where
  fill_eq _ _ := by
    simp only [fill, fillField_eq]
    rfl

instance : TotalFill PublishedFiles where
  fill_eq _ _ := by
    simp only [fill, fillField_eq]
    rfl

namespace Fragment

instance : Onto Fragment where
  onto own donor := {
    schedulerAgent := onto own.schedulerAgent donor.schedulerAgent
    policy := onto own.policy donor.policy
    presubmits := onto own.presubmits donor.presubmits
    postsubmits := onto own.postsubmits donor.postsubmits
    periodics := onto own.periodics donor.periodics
    trigger := onto own.trigger donor.trigger
    approve := onto own.approve donor.approve
    lgtm := onto own.lgtm donor.lgtm
    externalPlugins := onto own.externalPlugins donor.externalPlugins
    plugins := onto own.plugins donor.plugins
    merger := onto own.merger donor.merger
    configUpdater := onto own.configUpdater donor.configUpdater
    welcome := onto own.welcome donor.welcome
    attachments := onto own.attachments donor.attachments }

theorem jobs?_onto (s : JobSection) (own donor : Fragment) :
    s.jobs? (onto own donor) = onto (s.jobs? own) (s.jobs? donor) := by
  cases s <;> rfl

/-- No section of the donor uses a name that stands for two own jobs. -/
def Unambiguous (own donor : Fragment) : Prop :=
  ∀ s : JobSection, OptionUnambiguous (s.jobs? own) (s.jobs? donor)

/-- **When fragments are filled in, and what with.** Only the job sections can stand in the way. -/
theorem fill_eq (own donor : Fragment) :
    fill own donor =
      outcome
        (JobSection.all.flatMap fun s => optionAmbiguities s.name (s.jobs? own) (s.jobs? donor))
        (onto own donor) := by
  simp only [fill, fillField_jobs_eq, fillField_eq]
  -- three of the fourteen fields can fail, and they come one after the other
  exact outcome_bind (outcome_bind (outcome_bind rfl))

theorem fill_eq_ok_iff {own donor r : Fragment} :
    fill own donor = .ok r ↔ own.Unambiguous donor ∧ r = onto own donor := by
  rw [fill_eq, outcome_eq_ok_iff, List.flatMap_eq_nil_iff, eq_comm (a := onto own donor)]
  refine and_congr_left fun _ => ?_
  simp only [optionAmbiguities_eq_nil_iff]
  exact ⟨fun h s => h s (by cases s <;> decide), fun h s _ => h s⟩

end Fragment

end SchedulerPolicy
