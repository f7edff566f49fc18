import SchedulerPolicy.Proofs.Documents.MergeQueue
import SchedulerPolicy.Proofs.Documents.Protection

/-!
# What the form of the documents leaves out

The rules of a fragment take the form of the documents and are recovered from it. In the one
direction nothing is lost: the form of the documents has neither flags nor lists that are present
and empty. In the other just these are lost, and losing them once is losing them for good. Blocks
are another matter: a block that is present and empty stays a block in either form. So the rules
whose form is empty are those that set nothing, have no block and list nothing (`Silent`), and
`WireForm` says all this of a pair of conversions.

`compile` leaves a node out when its form is empty. Filling in protection from leaf to leaf never
takes anything away from what is there (`Protection.Silent.of_onto`). So the protection of a
repository whose node is left out was silent all the way, from the first leaf to the last
(`silent_of_foldl`).
-/

namespace SchedulerPolicy

variable {leaves : List Leaf}

/-! ### Lists -/

section Lists

variable {α : Type}

/-- The list with its flag cleared, absent when there are no items. -/
def withoutFlag (l : Option (ReplaceList α)) : Option (ReplaceList α) :=
  l.bind fun l => if l.items.isEmpty then none else some { l with replace := false }

/-- Whether a list that may be absent has no items. -/
def NoItems (l : Option (ReplaceList α)) : Prop := ∀ list ∈ l, list.items = []

theorem listOf_itemsOf (l : Option (ReplaceList α)) : listOf (itemsOf l) = withoutFlag l := by
  cases l <;> rfl

theorem itemsOf_eq_nil_iff {l : Option (ReplaceList α)} : itemsOf l = [] ↔ NoItems l := by
  cases l with
  | none => exact ⟨fun _ => nofun, fun _ => rfl⟩
  | some l => exact ⟨fun h list hl => Option.some.inj hl ▸ h, fun h => h l rfl⟩

/-- A list that comes out without items had none to begin with. -/
theorem NoItems.of_onto [BEq α] [LawfulBEq α] {own donor : Option (ReplaceList α)}
    (h : NoItems (onto own donor)) : NoItems own := by
  rintro a rfl
  cases donor with
  | none => exact h a rfl
  | some b =>
    have hitems : (onto a b).items = [] := h _ rfl
    cases hr : a.replace with
    | true => rwa [replaceList_onto_of_replace hr] at hitems
    | false =>
      rw [replaceList_onto_of_not_replace hr] at hitems
      -- the items of the donor come behind the own ones
      refine List.eq_nil_iff_forall_not_mem.2 fun x hx => ?_
      have hmem : x ∈ appendMissing a.items b.items := by
        rw [appendMissing_eq_appendNew, mem_appendNew]
        exact Or.inl hx
      exact List.ne_nil_of_mem hmem hitems

end Lists

/-! ### Rules of branches -/

def StatusChecks.withoutFlags (c : StatusChecks) : StatusChecks :=
  { c with contexts := withoutFlag c.contexts }

def PushRestrictions.withoutFlags (r : PushRestrictions) : PushRestrictions where
  users := withoutFlag r.users
  teams := withoutFlag r.teams

/-- The rules with all flags cleared and without lists that are empty. -/
def BranchRules.withoutFlags (r : BranchRules) : BranchRules :=
  { r with
    requiredStatusChecks := r.requiredStatusChecks.map (·.withoutFlags)
    restrictions := r.restrictions.map (·.withoutFlags)
    includeBranches := withoutFlag r.includeBranches
    excludeBranches := withoutFlag r.excludeBranches }

/-- Rules that set nothing, have no block and list no branches. -/
structure BranchRules.Silent (r : BranchRules) : Prop where
  protect : r.protect = none
  requiredStatusChecks : r.requiredStatusChecks = none
  admins : r.admins = none
  restrictions : r.restrictions = none
  requiredPullRequestReviews : r.requiredPullRequestReviews = none
  includeBranches : NoItems r.includeBranches
  excludeBranches : NoItems r.excludeBranches

theorem WireRules.toRules_ofRules (r : BranchRules) : (ofRules r).toRules = r.withoutFlags := by
  unfold ofRules toRules BranchRules.withoutFlags
  simp only [listOf_itemsOf, Option.map_map, Function.comp_def, Option.map_id']
  rfl

theorem WireRules.ofRules_eq_empty_iff {r : BranchRules} : ofRules r = {} ↔ r.Silent := by
  unfold ofRules
  -- an empty block has a form of its own, an empty list has that of no list
  rw [WireRules.mk.injEq, Option.map_eq_none_iff, Option.map_eq_none_iff, Option.map_eq_none_iff,
    itemsOf_eq_nil_iff, itemsOf_eq_nil_iff]
  exact ⟨fun ⟨hp, hc, ha, hr, hv, hi, he⟩ => ⟨hp, hc, ha, hr, hv, hi, he⟩,
    fun ⟨hp, hc, ha, hr, hv, hi, he⟩ => ⟨hp, hc, ha, hr, hv, hi, he⟩⟩

/-- A field that is filled in is not emptied. -/
theorem BranchRules.Silent.of_onto {own donor : BranchRules} (h : (onto own donor).Silent) :
    own.Silent where
  protect := eq_none_of_onto h.protect
  requiredStatusChecks := eq_none_of_onto h.requiredStatusChecks
  admins := eq_none_of_onto h.admins
  restrictions := eq_none_of_onto h.restrictions
  requiredPullRequestReviews := eq_none_of_onto h.requiredPullRequestReviews
  includeBranches := h.includeBranches.of_onto
  excludeBranches := h.excludeBranches.of_onto

/-! ### Status checks of the merge queue -/

/-- The rules with all flags cleared and without lists that are empty. -/
def ContextRules.withoutFlags (r : ContextRules) : ContextRules :=
  { r with
    requiredContexts := withoutFlag r.requiredContexts
    optionalContexts := withoutFlag r.optionalContexts
    requiredIfPresentContexts := withoutFlag r.requiredIfPresentContexts }

/-- Rules that set nothing and list no checks. -/
structure ContextRules.Silent (r : ContextRules) : Prop where
  requiredContexts : NoItems r.requiredContexts
  optionalContexts : NoItems r.optionalContexts
  requiredIfPresentContexts : NoItems r.requiredIfPresentContexts
  skipUnknownContexts : r.skipUnknownContexts = none
  fromBranchProtection : r.fromBranchProtection = none

theorem RepoContexts.toRules_ofRules (r : ContextRules) : (ofRules r).toRules = r.withoutFlags := by
  unfold ofRules toRules ContextRules.withoutFlags
  simp only [listOf_itemsOf]

theorem RepoContexts.ofRules_eq_empty_iff {r : ContextRules} : ofRules r = {} ↔ r.Silent := by
  unfold ofRules
  rw [RepoContexts.mk.injEq, itemsOf_eq_nil_iff, itemsOf_eq_nil_iff, itemsOf_eq_nil_iff]
  exact ⟨fun ⟨hr, ho, hp, hs, hf⟩ => ⟨hr, ho, hp, hs, hf⟩,
    fun ⟨hr, ho, hp, hs, hf⟩ => ⟨hr, ho, hp, hs, hf⟩⟩

/-! ### Both forms -/

/-- How rules of a fragment and their form in the documents are related. -/
structure WireForm {R W : Type} (ofRules : R → W) (toRules : W → R) (withoutFlags : R → R)
    (empty : W) (Silent : R → Prop) : Prop where
  /-- What is in the documents is not lost. -/
  returns : ∀ w, ofRules (toRules w) = w
  /-- What is in a fragment is lost as far as it consists of flags and of empty lists. -/
  recovers : ∀ r, toRules (ofRules r) = withoutFlags r
  /-- It is lost the first time. -/
  settles : ∀ r, toRules (ofRules (toRules (ofRules r))) = toRules (ofRules r)
  empty_iff : ∀ r, ofRules r = empty ↔ Silent r

theorem wireForm_branchRules :
    WireForm WireRules.ofRules WireRules.toRules BranchRules.withoutFlags {}
      BranchRules.Silent where
  returns := WireRules.ofRules_toRules
  recovers := WireRules.toRules_ofRules
  settles r := congrArg WireRules.toRules (WireRules.ofRules_toRules (WireRules.ofRules r))
  empty_iff _ := WireRules.ofRules_eq_empty_iff

theorem wireForm_contextRules :
    WireForm RepoContexts.ofRules RepoContexts.toRules ContextRules.withoutFlags {}
      ContextRules.Silent where
  returns := RepoContexts.ofRules_toRules
  recovers := RepoContexts.toRules_ofRules
  settles r := congrArg RepoContexts.toRules (RepoContexts.ofRules_toRules (RepoContexts.ofRules r))
  empty_iff _ := RepoContexts.ofRules_eq_empty_iff

/-! ### Nodes -/

/-- Protection with silent rules and without rules for single branches. -/
structure Protection.Silent (p : Protection) : Prop where
  policy : ∀ r ∈ p.policy, r.Silent
  branches : ∀ m ∈ p.branches, m = ∅

theorem policy_isEmpty_iff {policy : Option BranchRules} :
    ((policy.map WireRules.ofRules).getD {}).isEmpty = true ↔ ∀ r ∈ policy, r.Silent := by
  rw [WireRules.isEmpty_iff]
  cases policy with
  | none => exact iff_of_true rfl fun _ => nofun
  | some r =>
    rw [Option.map_some, Option.getD_some, WireRules.ofRules_eq_empty_iff]
    exact ⟨fun h s hs => Option.some.inj hs ▸ h, fun h => h r rfl⟩

/-- Even silent rules keep the branch that they are for. -/
theorem branches_isEmpty_iff {branches : Option (Keyed BranchRules)} :
    ((branches.getD ∅).map WireRules.ofRules).isEmpty = true ↔ ∀ m ∈ branches, m = ∅ := by
  have hmap : ∀ m : Keyed BranchRules, (m.map WireRules.ofRules).isEmpty = true ↔ m = ∅ := by
    intro m
    rw [← Keyed.isEmpty_iff_eq, Keyed.isEmpty_iff, Keyed.isEmpty_iff]
    simp only [Keyed.get?_map, Option.map_eq_none_iff]
  rw [hmap]
  cases branches with
  | none => exact iff_of_true rfl fun _ => nofun
  | some m => exact ⟨fun h n hn => Option.some.inj hn ▸ h, fun h => h m rfl⟩

/-- **A node is left out when the protection is silent**, and not otherwise. -/
theorem repoNode?_eq_none_iff {p : Protection} : Compile.repoNode? p = none ↔ p.Silent := by
  unfold Compile.repoNode?
  dsimp only
  rw [ite_eq_left_iff, Bool.and_eq_true, policy_isEmpty_iff, branches_isEmpty_iff]
  constructor
  · intro h
    by_cases hsilent : (∀ r ∈ p.policy, r.Silent) ∧ ∀ m ∈ p.branches, m = ∅
    · exact ⟨hsilent.1, hsilent.2⟩
    · cases h hsilent
  · rintro ⟨hp, hb⟩ hn
    exact absurd ⟨hp, hb⟩ hn

/-! ### From leaf to leaf -/

/-- **Protection that comes out silent was silent before.** -/
theorem Protection.Silent.of_onto {own donor : Protection} (h : (onto own donor).Silent) :
    own.Silent where
  policy r hr := by
    have hpolicy : ∀ s ∈ onto own.policy donor.policy, s.Silent := h.policy
    rw [Option.mem_def.1 hr] at hpolicy
    -- rules of the donor come under the own ones, or they stay alone
    cases hd : donor.policy with
    | none => exact hpolicy r (by rw [hd, onto_none]; rfl)
    | some s => exact .of_onto (hpolicy (onto r s) (by rw [hd]; rfl))
  branches m hm := by
    have hbranches : ∀ n ∈ onto own.branches donor.branches, n = ∅ := h.branches
    rw [Option.mem_def.1 hm] at hbranches
    cases hd : donor.branches with
    | none => exact hbranches m (by rw [hd, onto_none]; rfl)
    | some n =>
      have hempty : onto m n = ∅ := hbranches (onto m n) (by rw [hd]; rfl)
      -- a branch that had rules before would still have some
      refine Keyed.ext_get? fun key => ?_
      have hkey : (onto m n).get? key = none := by
        rw [hempty, Keyed.get?_empty]
      rw [Keyed.get?_onto, Option.or_eq_none_iff] at hkey
      rw [hkey.1, Keyed.get?_empty]

theorem silent_of_putProtection {table : Compile.ProtectionTable} {l : Leaf} {q : String × String}
    (h : ∀ p ∈ (putProtection table l).getIn? id q, p.Silent) :
    ∀ p ∈ table.getIn? id q, p.Silent := by
  intro p hp
  rw [getIn?_putProtection] at h
  by_cases hq : l.place = q
  · -- the leaf is one of this repository, and is laid under what is there
    rw [if_pos hq, Option.mem_def.1 hp] at h
    unfold putValue at h
    dsimp only at h
    -- a leaf without protection leaves the table as it is
    cases hpolicy : l.fragment.policy with
    | none =>
      rw [hpolicy] at h
      exact h p rfl
    | some given =>
      rw [hpolicy] at h
      exact .of_onto (h (protectionOver given (some p)) rfl)
  · rw [if_neg hq] at h
    exact h p hp

theorem silent_of_foldl {table : Compile.ProtectionTable} {q : String × String}
    (h : ∀ p ∈ (leaves.foldl putProtection table).getIn? id q, p.Silent) :
    ∀ p ∈ table.getIn? id q, p.Silent := by
  induction leaves generalizing table with
  | nil => exact h
  | cons l leaves ih => exact silent_of_putProtection (ih h)

/-- A table of protection that compiling goes through: what there is after the first few leaves. -/
def Compile.Stage (leaves : List Leaf) (table : ProtectionTable) : Prop :=
  ∃ n, (leaves.take n).foldlM addProtection ∅ = .ok table

theorem stage_iff {table : Compile.ProtectionTable} :
    Compile.Stage leaves table ↔ ∃ n, (leaves.take n).foldl putProtection ∅ = table := by
  unfold Compile.Stage
  simp only [foldlM_addProtection, Except.ok.injEq]

/-- What the tree holds for a repository. -/
theorem repo?_protectionOf (leaves : List Leaf) (org repo : String) :
    (protectionOf leaves).repo? org repo =
      ((leaves.foldl putProtection ∅).getIn? id (org, repo)).bind Compile.repoNode? :=
  getIn?_filterMap_orgNode? _ (org, repo)

/-- **Conversions lose nothing that the documents hold, and no opinion of a fragment.** That is so
for the rules of branches and for the status checks of the merge queue. And when the documents have
no node for a repository, then its protection was silent at every stage; a list that replaces
without items may keep out what further leaves list, but it does not take back what was there. -/
theorem wireForms_compile (leaves : List Leaf) :
    WireForm WireRules.ofRules WireRules.toRules BranchRules.withoutFlags {} BranchRules.Silent ∧
    WireForm RepoContexts.ofRules RepoContexts.toRules ContextRules.withoutFlags {}
      ContextRules.Silent ∧
    ∀ d, compile leaves = .ok d → ∀ org repo, d.jobs.branchProtection.repo? org repo = none ↔
      ∀ table, Compile.Stage leaves table → ∀ p ∈ table.getIn? id (org, repo), p.Silent := by
  refine ⟨wireForm_branchRules, wireForm_contextRules, fun d h org repo => ?_⟩
  obtain ⟨-, rfl⟩ := compile_eq_ok_iff.1 h
  have hnone : (protectionOf leaves).repo? org repo = none ↔
      ∀ p ∈ (leaves.foldl putProtection ∅).getIn? id (org, repo), p.Silent := by
    rw [repo?_protectionOf, Option.bind_eq_none_iff]
    simp only [repoNode?_eq_none_iff, Option.mem_def]
  change (protectionOf leaves).repo? org repo = none ↔ _
  rw [hnone]
  constructor
  · -- from any stage the remaining leaves lead to the last one
    intro hsilent table hstage
    obtain ⟨n, rfl⟩ := stage_iff.1 hstage
    rw [← List.take_append_drop n leaves, List.foldl_append] at hsilent
    exact silent_of_foldl hsilent
  · intro hstages
    exact hstages _ (stage_iff.2 ⟨leaves.length, by rw [List.take_length]⟩)

namespace Restrained

/-- A repository with a list that replaces and has no items, and one with a block that is empty. -/
def team : List Leaf := [
  { org := "acme", repo := "shop"
    fragment := {
      policy := some {
        protectTested := some true
        policy := some { includeBranches := some { replace := true } } } } },
  { org := "acme", repo := "depot"
    fragment := { policy := some { policy := some { restrictions := some {} } } } }]

/-- The first repository has no node and was silent at every stage; the second has a node, so it was
not. -/
theorem wireForms_team :
    compile team = .ok (documents team) ∧
    (documents team).jobs.branchProtection.repo? "acme" "shop" = none ∧
    (∀ table, Compile.Stage team table → ∀ p ∈ table.getIn? id ("acme", "shop"), p.Silent) ∧
    (documents team).jobs.branchProtection.repo? "acme" "depot" =
      some { policy := { restrictions := some {} } } ∧
    ¬∀ table, Compile.Stage team table → ∀ p ∈ table.getIn? id ("acme", "depot"), p.Silent := by
  have hd : compile team = .ok (documents team) := compile_eq_ok (by decide)
  have hshop : (documents team).jobs.branchProtection.repo? "acme" "shop" = none := by decide
  have hdepot : (documents team).jobs.branchProtection.repo? "acme" "depot" =
      some { policy := { restrictions := some {} } } := by decide
  have hnodes := (wireForms_compile team).2.2 _ hd
  refine ⟨hd, hshop, (hnodes "acme" "shop").1 hshop, hdepot, fun hsilent => ?_⟩
  have hnone := (hnodes "acme" "depot").2 hsilent
  rw [hdepot] at hnone
  cases hnone

end Restrained

end SchedulerPolicy
