import SchedulerPolicy.Proofs.Documents.Returned

/-!
# Branch protection

Rules take another form in the documents, and recovering them leads back. What is lost on the way is
lost the first time: rules of the documents come back as they are (`WireRules.ofRules_toRules`), and
so does the node of a repository (`bind_protection?`). What the
team says is for all repositories and does not show in a node; so the tree stays the same
(`protection_returned`).
-/

namespace SchedulerPolicy

variable {leaves : List Leaf}

/-! ### Rules -/

/-- The rules of the document are found again in the rules that they come apart into. -/
theorem WireRules.ofRules_toRules (w : WireRules) : ofRules w.toRules = w := by
  unfold ofRules toRules
  simp only [itemsOf_listOf, Option.map_map, Function.comp_def, Option.map_id']

/-- Rules that say nothing may be left out. -/
theorem getD_map_rules? (r : BranchRules) :
    ((Recover.rules? (.ofRules r)).map WireRules.ofRules).getD {} = .ofRules r := by
  unfold Recover.rules?
  split
  · next hempty => exact (WireRules.isEmpty_iff.1 hempty).symm
  · exact WireRules.ofRules_toRules (.ofRules r)

/-- The rules of branches may be left out when there are none. -/
theorem map_getD_branches (branches : Keyed BranchRules) :
    ((if (branches.map WireRules.ofRules).isEmpty then none
      else some ((branches.map WireRules.ofRules).map (·.toRules))).getD ∅).map WireRules.ofRules =
      branches.map WireRules.ofRules := by
  refine Keyed.ext_get? fun key => ?_
  split
  · next hempty =>
    -- no branch has rules, before or after
    rw [Keyed.isEmpty_iff.1 hempty, Option.getD_none, Keyed.get?_map, Keyed.get?_empty,
      Option.map_none]
  · rw [Option.getD_some, Keyed.get?_map, Keyed.get?_map, Keyed.get?_map]
    cases branches.get? key with
    | none => rfl
    | some r => exact congrArg some (WireRules.ofRules_toRules (.ofRules r))

/-! ### Nodes -/

/-- What the node of a repository holds. -/
theorem repoNode?_eq_some {p : Protection} {node : RepoProtection}
    (h : Compile.repoNode? p = some node) :
    node.policy = (p.policy.map WireRules.ofRules).getD {} ∧
      node.branches = (p.branches.getD ∅).map WireRules.ofRules ∧
      (node.policy.isEmpty && node.branches.isEmpty) = false := by
  unfold Compile.repoNode? at h
  dsimp only at h
  split at h
  · cases h
  · next hempty =>
    obtain rfl := Option.some.inj h
    exact ⟨rfl, rfl, Bool.not_eq_true _ ▸ hempty⟩

/-- **The node of a repository is found again.** -/
theorem bind_protection? {tree : ProtectionTree} {org repo : String} {found : Option Protection}
    (h : tree.repo? org repo = found.bind Compile.repoNode?) :
    (Recover.protection? tree org repo).bind Compile.repoNode? =
      found.bind Compile.repoNode? := by
  unfold Recover.protection?
  rw [h]
  cases hbind : found.bind Compile.repoNode? with
  | none => rfl
  | some node =>
    obtain ⟨p, -, hnode⟩ := Option.bind_eq_some_iff.1 hbind
    obtain ⟨hpolicy, hbranches, hempty⟩ := repoNode?_eq_some hnode
    -- a node without rules holds those that say nothing
    have hrules : node.policy = .ofRules (p.policy.getD {}) := by
      rw [hpolicy]
      cases p.policy <;> rfl
    let policy := Recover.rules? node.policy
    let branches := if node.branches.isEmpty then none else some (node.branches.map (·.toRules))
    have hpolicy' : (policy.map WireRules.ofRules).getD {} = node.policy := by
      simp only [policy]
      rw [hrules, getD_map_rules?]
    have hbranches' : (branches.getD ∅).map WireRules.ofRules = node.branches := by
      simp only [branches]
      rw [hbranches, map_getD_branches]
    -- a node that says something leaves something behind
    have hsome : (policy.isNone && branches.isNone) = false := by
      have hpolicyNone : policy.isNone = node.policy.isEmpty := by
        simp only [policy, Recover.rules?]
        cases node.policy.isEmpty <;> rfl
      have hbranchesNone : branches.isNone = node.branches.isEmpty := by
        simp only [branches]
        cases node.branches.isEmpty <;> rfl
      rw [hpolicyNone, hbranchesNone, hempty]
    change (if policy.isNone && branches.isNone then none
      else some ({ policy, branches } : Protection)).bind Compile.repoNode? = some node
    rw [hsome, if_neg Bool.false_ne_true, Option.bind_some]
    unfold Compile.repoNode?
    dsimp only
    rw [hpolicy', hbranches', hempty]
    rfl

/-- What is said in general for all repositories does not show in the node of one. -/
theorem bind_onto_repoNode? {own team : Option Protection}
    (hteam : ∀ p ∈ team, p.policy = none ∧ p.branches = none) :
    (onto own team).bind Compile.repoNode? = own.bind Compile.repoNode? := by
  cases team with
  | none => rw [onto_none]
  | some t =>
    -- only the policy and the branches go into a node, and the team has neither
    obtain ⟨hpolicy, hbranches⟩ := hteam t rfl
    cases own with
    | none =>
      rw [none_onto, Option.bind_some, Option.bind_none]
      unfold Compile.repoNode?
      rw [hpolicy, hbranches]
      rfl
    | some p =>
      have hpolicy' : (onto p t).policy = p.policy := by
        change onto p.policy t.policy = p.policy
        rw [hpolicy, onto_none]
      have hbranches' : (onto p t).branches = p.branches := by
        change onto p.branches t.branches = p.branches
        rw [hbranches, onto_none]
      rw [some_onto_some, Option.bind_some, Option.bind_some]
      unfold Compile.repoNode?
      rw [hpolicy', hbranches']

/-! ### The tree -/

/-- The team protects what is tested as the documents say. -/
theorem protectTested_teamFragment (d : JobDocument) :
    (Recover.teamFragment d).policy.bind (·.protectTested) =
      d.branchProtection.protectTestedRepos := by
  unfold Recover.teamFragment
  dsimp only
  cases d.branchProtection.protectTestedRepos with
  | none =>
    -- a policy that the team has in general says nothing about it
    split <;> rfl
  | some tested => rfl

/-- The team has no rules of its own when the documents are those of leaves. -/
theorem policy_teamFragment (leaves : List Leaf) :
    ∀ p ∈ (Recover.teamFragment (documents leaves).jobs).policy,
      p.policy = none ∧ p.branches = none := by
  change ∀ p ∈ if (protectionOf leaves).protectTestedRepos.isNone && true then none
      else some ({ protectTested := (protectionOf leaves).protectTestedRepos } : Protection),
    p.policy = none ∧ p.branches = none
  intro p hp
  split at hp
  · cases hp
  · obtain rfl := Option.some.inj hp
    exact ⟨rfl, rfl⟩

theorem node?_leaf (h : (leaves.map Leaf.key).Nodup) {l : Leaf} (hl : l ∈ leaves) :
    (Recover.leaf (documents leaves) l.org l.repo).node? = l.node? := by
  -- the node at the place of the leaf is its own
  have hfound : (protectionOf leaves).repo? l.org l.repo = l.node? := by
    change (protectionOf leaves).orgs.getIn? OrgProtection.repos l.place = _
    rw [getIn?_protection h, itemAt_key (nodup_place h) hl, Option.bind_some]
  calc (Recover.leaf (documents leaves) l.org l.repo).node?
      = (onto (Recover.protection? (protectionOf leaves) l.org l.repo)
          (Recover.teamFragment (documents leaves).jobs).policy).bind Compile.repoNode? := rfl
    _ = (Recover.protection? (protectionOf leaves) l.org l.repo).bind Compile.repoNode? :=
        bind_onto_repoNode? (policy_teamFragment leaves)
    _ = l.node? := bind_protection? hfound

theorem protectTested_leaf (d : Documents) (org repo : String) :
    (Recover.leaf d org repo).fragment.policy.bind (·.protectTested) =
      d.jobs.branchProtection.protectTestedRepos := by
  let own := Recover.protection? d.jobs.branchProtection org repo
  let team := (Recover.teamFragment d.jobs).policy
  -- the protection of a repository leaves it open
  have hown : own.bind (·.protectTested) = none := by
    refine Option.bind_eq_none_iff.2 fun p hp => ?_
    simp only [own, Recover.protection?] at hp
    split at hp
    · cases hp
    · rw [Option.ite_none_left_eq_some] at hp
      rw [← Option.some.inj hp.2]
  calc (onto own team).bind (·.protectTested)
      = onto (own.bind (·.protectTested)) (team.bind (·.protectTested)) :=
        bind_onto none_onto onto_none (fun _ _ => rfl) own team
    _ = d.jobs.branchProtection.protectTestedRepos := by
        rw [hown, none_onto]
        exact protectTested_teamFragment d.jobs

/-- **Branch protection stays the same.** -/
theorem protection_returned (h : Recoverable leaves) :
    protectionOf (returned (documents leaves) leaves) = protectionOf leaves := by
  have hs : Survives (documents leaves) Leaf.node? leaves := {
    kept := fun l hl _ => node?_leaf h.nodup hl
    dropped := fun l _ hdropped => by
      have hnone := Leaf.appears_of_not_anchored hdropped .branchProtection
      exact Option.isNone_iff_eq_none.1 (Option.isSome_eq_false_iff.1 hnone) }
  -- the node of every leaf survives, and one setting is of the whole
  have horgs : (protectionOf (returned (documents leaves) leaves)).orgs =
      (protectionOf leaves).orgs := hs.tree_eq h.nodup populated_protection getIn?_protection
  have htested : (protectionOf (returned (documents leaves) leaves)).protectTestedRepos =
      (protectionOf leaves).protectTestedRepos :=
    lastSet_of_forall (h.returned_ne_nil _) (forall_mem_restored fun l _ _ =>
      protectTested_leaf (documents leaves) l.org l.repo)
  unfold protectionOf at horgs htested ⊢
  dsimp only at horgs htested
  rw [horgs, htested]

end SchedulerPolicy
