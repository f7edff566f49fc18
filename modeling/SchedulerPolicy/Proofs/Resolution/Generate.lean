import SchedulerPolicy.Proofs.Resolution.Chain
import SchedulerPolicy.Proofs.Steps

/-!
# Generating leaves

What `generate` computes, on canonical fragments, without saying how. It fails when there is no
repository, or when two groups of a repository are in conflict; one such repository fails the whole.
Otherwise every repository with a chain has its leaf, which holds what the plain chain builds, and
the leaves are sorted by key (`generate_outcome`).
-/

namespace SchedulerPolicy

/-! ### Leaves -/

namespace Resolver

variable {r : Resolver}

/-- The scopes that a repository belongs to, without the injection. -/
def scopes (r : Resolver) (repository : SourceRepository) : ChainBuilder :=
  let builder : ChainBuilder := { schedulers := r.schedulers }
  let members := r.groups.filter (SourceRepositoryGroup.contains · repository.name)
  (members.foldl announceGroup (builder.withTeam r.teamDefault)).withRepository
    (SourceRepository.scheduler? repository)

theorem chain_eq (r : Resolver) (repository : SourceRepository) :
    r.chain repository =
      (if r.isBoot repository then (r.scopes repository).withBootstrap r.injection
        else r.scopes repository).chain := rfl

/-- Every scope stands in the slot of its level, with a fragment of some scheduler. -/
theorem scopes_sorted {P : Fragment → Prop}
    (hschedulers : ∀ name, ∀ f ∈ r.schedulers.get? name, P f) (repository : SourceRepository) :
    (r.scopes repository).Sorted P := by
  have hstart : ChainBuilder.Sorted P { schedulers := r.schedulers } :=
    { schedulers := hschedulers
      team := by rintro l ⟨⟩
      groups := List.forall_mem_nil _
      own := by rintro l ⟨⟩
      bootstrap := by rintro l ⟨⟩ }
  -- every announcement puts its link into the slot of its level
  exact ((hstart.withTeam r.teamDefault).announceGroups
    (r.groups.filter (SourceRepositoryGroup.contains · repository.name))).withRepository
      (SourceRepository.scheduler? repository)

/-- The chain of a repository is grouped, and its fragments are those of schedulers and of the
injection. -/
theorem chain_sorted {P : Fragment → Prop} (hschedulers : ∀ name, ∀ f ∈ r.schedulers.get? name, P f)
    (hinjection : P r.injection) (repository : SourceRepository) :
    Grouped (r.chain repository) ∧ ∀ l ∈ r.chain repository, P l.fragment := by
  have hown := scopes_sorted hschedulers repository
  rw [chain_eq]
  split
  · have hboot := hown.withBootstrap hinjection
    exact ⟨hboot.grouped, hboot.forall_chain⟩
  · exact ⟨hown.grouped, hown.forall_chain⟩

/-- A repository with a chain has a leaf when the chain comes down to a fragment. -/
theorem leaf?_of_foldChain {repository : SourceRepository} (hne : r.chain repository ≠ [])
    {f : Fragment} (h : foldChain (r.chain repository) = .ok f) :
    r.leaf? repository =
      .ok (some { org := repository.spec.org, repo := repository.spec.repo, fragment := f }) := by
  unfold leaf?
  split
  · next hnil => exact absurd hnil hne
  · rw [h]

/-- The leaf that a repository has if it has one. -/
def leafOf (r : Resolver) (repository : SourceRepository) : Leaf where
  org := repository.spec.org
  repo := repository.spec.repo
  fragment := Fragment.stack (fragments (r.chain repository))

theorem filterMap_leaves (r : Resolver) (repositories : List SourceRepository) :
    (repositories.map fun repository =>
        if (r.chain repository).isEmpty then none else some (r.leafOf repository)).filterMap id =
      (repositories.filter fun repository => !(r.chain repository).isEmpty).map r.leafOf := by
  induction repositories with
  | nil => rfl
  | cons repository repositories ih =>
    rw [List.map_cons, List.filter_cons]
    -- a repository is kept when its chain is not empty
    cases (r.chain repository).isEmpty with
    | true => exact ih
    | false =>
      rw [List.filterMap_cons_some (by exact rfl), ih]
      rfl

variable (hschedulers : ∀ name, ∀ f ∈ r.schedulers.get? name, f.Canonical)
  (hinjection : r.injection.Canonical) (repository : SourceRepository)

include hschedulers hinjection

/-- Without a conflict a repository has its leaf, or no leaf for want of a chain. -/
theorem leaf?_of_not_conflict (h : ¬GroupConflict (r.chain repository)) :
    r.leaf? repository =
      .ok (if (r.chain repository).isEmpty then none else some (r.leafOf repository)) := by
  obtain ⟨hgrouped, hcanonical⟩ := chain_sorted hschedulers hinjection repository
  -- what the groups come to is what the plain chain is stacked to
  have hfold := (foldChain_eq_ok_iff hgrouped hcanonical).2 ⟨h, rfl⟩
  unfold leaf? leafOf
  split
  · next hnil =>
    rw [hnil]
    rfl
  · next hne =>
    rw [hfold, if_neg fun hnil => hne (List.isEmpty_iff.1 hnil)]

/-- Groups in conflict leave their repository without a leaf. -/
theorem leaf?_of_conflict (h : GroupConflict (r.chain repository)) :
    ∃ e, r.leaf? repository = .error e := by
  obtain ⟨hgrouped, hcanonical⟩ := chain_sorted hschedulers hinjection repository
  have hfold : ∀ f, foldChain (r.chain repository) ≠ .ok f := fun f hf =>
    ((foldChain_eq_ok_iff hgrouped hcanonical).1 hf).1 h
  unfold leaf?
  split
  · next hnil =>
    -- there is no conflict in an empty chain
    obtain ⟨x, y, hxy, -⟩ := h
    rw [hnil] at hxy
    cases hxy
  · split
    · next f hf => exact absurd hf (hfold f)
    · next cause _ => exact ⟨_, rfl⟩

end Resolver

/-! ### The whole -/

/-- What is found in an index is the fragment of one of its schedulers. -/
theorem SchedulerIndex.forall_mem_ofList {P : Fragment → Prop} {schedulers : List Scheduler}
    (h : ∀ s ∈ schedulers, P s.spec) (name : String) :
    ∀ f ∈ (SchedulerIndex.ofList schedulers).get? name, P f := by
  intro f hf
  obtain ⟨s, hs, heq⟩ := List.mem_map.1 (Keyed.mem_of_get?_ofList hf)
  rw [← (Prod.mk.inj heq).2]
  exact h s hs

theorem Bootstrap.canonical_fragment (b : Bootstrap) : b.fragment.Canonical where
  jobs := by rintro (_ | _ | _) set hset <;> cases hset
  queries := by intro rules hrules; cases hrules

section Order

variable (leaves : List Leaf)

theorem key_le_trans (a b c : Leaf) (hab : decide (a.key ≤ b.key) = true)
    (hbc : decide (b.key ≤ c.key) = true) : decide (a.key ≤ c.key) = true := by
  rw [decide_eq_true_eq] at hab hbc ⊢
  exact String.le_trans hab hbc

theorem key_le_total (a b : Leaf) : (decide (a.key ≤ b.key) || decide (b.key ≤ a.key)) = true := by
  rw [Bool.or_eq_true, decide_eq_true_eq, decide_eq_true_eq]
  exact String.le_total a.key b.key

theorem pairwise_sorted :
    (leaves.mergeSort fun a b => a.key ≤ b.key).Pairwise fun a b => a.key ≤ b.key :=
  (List.pairwise_mergeSort key_le_trans key_le_total leaves).imp of_decide_eq_true

/-- Leaves of one key keep their order. -/
theorem filter_key_sorted (key : String) :
    (leaves.mergeSort fun a b => a.key ≤ b.key).filter (·.key == key) =
      leaves.filter (·.key == key) := by
  -- leaves of one key are sorted as they stand, and sorting is stable
  have hle : (leaves.filter (·.key == key)).Pairwise fun a b => decide (a.key ≤ b.key) = true := by
    refine List.pairwise_of_forall_mem_list fun a ha b hb => decide_eq_true ?_
    have hkey : a.key = b.key :=
      (beq_iff_eq.1 (List.mem_filter.1 ha).2).trans (beq_iff_eq.1 (List.mem_filter.1 hb).2).symm
    exact hkey ▸ String.le_refl a.key
  have hsub := List.sublist_mergeSort key_le_trans key_le_total hle List.filter_sublist
  have hsub' := hsub.filter (·.key == key)
  rw [List.filter_filter] at hsub'
  simp only [Bool.and_self] at hsub'
  refine (hsub'.eq_of_length ?_).symm
  exact ((List.mergeSort_perm leaves _).filter _).length_eq.symm

end Order

/-- **What is generated from canonical schedulers.** It fails exactly when there is no repository or
two groups of a repository are in conflict. Otherwise every repository with a chain has its leaf,
with the fragment that the plain chain builds; the leaves are sorted by key, and leaves of one key
stand in the order of their repositories. -/
theorem generate_outcome (repositories : List SourceRepository)
    (groups : List SourceRepositoryGroup) (schedulers : List Scheduler)
    (environment : Option Environment) (bootstrap : Bootstrap)
    (hcanonical : ∀ s ∈ schedulers, s.spec.Canonical) :
    let chain := (Resolver.ofResources groups schedulers environment bootstrap).chain
    let generated := generate repositories groups schedulers environment bootstrap
    ((∃ e, generated = .error e) ↔
      repositories = [] ∨ ∃ repository ∈ repositories, GroupConflict (chain repository)) ∧
    ∀ leaves, generated = .ok leaves →
      leaves.Pairwise (fun a b => a.key ≤ b.key) ∧
      ∃ leafOf : SourceRepository → Leaf,
        (∀ repository ∈ repositories, chain repository ≠ [] →
          (leafOf repository).org = repository.spec.org ∧
          (leafOf repository).repo = repository.spec.repo ∧
          Fragment.build ((chain repository).map (·.fragment)) =
            .ok (leafOf repository).fragment) ∧
        let found := (repositories.filter fun repository => !(chain repository).isEmpty).map leafOf
        leaves.Perm found ∧
          ∀ key, leaves.filter (·.key == key) = found.filter (·.key == key) := by
  intro chain generated
  let r := Resolver.ofResources groups schedulers environment bootstrap
  have hschedulers : ∀ name, ∀ f ∈ r.schedulers.get? name, f.Canonical :=
    SchedulerIndex.forall_mem_ofList hcanonical
  have hinjection : r.injection.Canonical := bootstrap.canonical_fragment
  by_cases hempty : repositories = []
  · -- nothing to resolve
    have hgenerated : generated = .error .noRepositories := by
      change generate repositories groups schedulers environment bootstrap = _
      rw [generate, hempty]
      rfl
    rw [hgenerated]
    exact ⟨⟨fun _ => Or.inl hempty, fun _ => ⟨_, rfl⟩⟩, by rintro leaves ⟨⟩⟩
  have hgenerated : generated = (repositories.mapM r.leaf? >>= fun leaves =>
      pure ((leaves.filterMap id).mergeSort fun a b => a.key ≤ b.key)) := by
    change generate repositories groups schedulers environment bootstrap = _
    rw [generate, if_neg fun h => hempty (List.isEmpty_iff.1 h)]
  by_cases hconflict : ∃ repository ∈ repositories, GroupConflict (chain repository)
  · -- one repository in conflict fails the whole
    obtain ⟨repository, hmem, hgroups⟩ := hconflict
    obtain ⟨e, he⟩ := Resolver.leaf?_of_conflict hschedulers hinjection repository hgroups
    obtain ⟨e', he'⟩ := mapM_error_of_mem hmem he
    rw [hgenerated, he']
    exact ⟨⟨fun _ => Or.inr ⟨repository, hmem, hgroups⟩, fun _ => ⟨e', rfl⟩⟩, by rintro leaves ⟨⟩⟩
  · -- no repository stands in the way
    have hleaves := mapM_eq_ok_map fun repository hmem =>
      Resolver.leaf?_of_not_conflict hschedulers hinjection repository fun h =>
        hconflict ⟨repository, hmem, h⟩
    rw [hgenerated, hleaves]
    refine ⟨⟨by rintro ⟨e, ⟨⟩⟩, fun h => absurd h (not_or.2 ⟨hempty, hconflict⟩)⟩, ?_⟩
    rintro leaves ⟨⟩
    rw [Resolver.filterMap_leaves]
    refine ⟨pairwise_sorted _, r.leafOf, ?_, List.mergeSort_perm _ _, filter_key_sorted _⟩
    intro repository _ _
    have hchain := (Resolver.chain_sorted hschedulers hinjection repository).2
    exact ⟨rfl, rfl, Fragment.build_of_canonical (forall_fragments.2 hchain)⟩

/-- Leaves that are found in the order of their keys are generated as they are found. -/
theorem generate_of_mapM {repositories : List SourceRepository}
    {groups : List SourceRepositoryGroup} {schedulers : List Scheduler}
    {environment : Option Environment} {bootstrap : Bootstrap} {leaves : List Leaf}
    (hne : repositories ≠ [])
    (hleaves : repositories.mapM
      (Resolver.ofResources groups schedulers environment bootstrap).leaf? =
        .ok (leaves.map some))
    (hsorted : leaves.Pairwise fun a b => a.key ≤ b.key) :
    generate repositories groups schedulers environment bootstrap = .ok leaves := by
  have hfound : (leaves.map some).filterMap id = leaves := by
    rw [List.filterMap_map]
    exact List.filterMap_some
  unfold generate
  rw [if_neg fun h => hne (List.isEmpty_iff.1 h)]
  dsimp only
  rw [hleaves]
  change Except.ok (((leaves.map some).filterMap id).mergeSort fun a b => a.key ≤ b.key) = _
  -- sorting leaves what is sorted as it is
  rw [hfound, List.mergeSort_of_pairwise (hsorted.imp fun h => decide_eq_true h)]

/-- Leaves that come in the order of their keys are generated in the order of the repositories. -/
theorem generate_eq_ok {repositories : List SourceRepository} {groups : List SourceRepositoryGroup}
    {schedulers : List Scheduler} {environment : Option Environment} {bootstrap : Bootstrap}
    {leafOf : SourceRepository → Leaf} (hne : repositories ≠ [])
    (hleaf : ∀ s ∈ repositories,
      (Resolver.ofResources groups schedulers environment bootstrap).leaf? s =
        .ok (some (leafOf s)))
    (hsorted : (repositories.map leafOf).Pairwise fun a b => a.key ≤ b.key) :
    generate repositories groups schedulers environment bootstrap =
      .ok (repositories.map leafOf) := by
  refine generate_of_mapM hne ?_ hsorted
  rw [mapM_eq_ok_map hleaf, List.map_map]
  rfl

/-! ### A shop in two groups -/

namespace Shop

/-- A repository that refers to no scheduler of its own. -/
def repository : SourceRepository := .ofParts "shop" "acme" "shop" none

/-- A group that the repository belongs to. -/
def group (name : String) : SourceRepositoryGroup :=
  .ofSpec .sourceRepositoryGroup name
    { repositories := [{ name := "shop" }], scheduler := some (Reference.toScheduler name) }

/-- A fragment with one job, run by an engine. -/
def lint (agent : Option String) : Fragment :=
  { presubmits := some { items := [{ name := "lint", agent }] } }

def team : Fragment := { plugins := some { items := ["trigger"] } }

/-- The two groups define the job differently. -/
def schedulers : List Scheduler :=
  [.ofFragment "team" team, .ofFragment "backend" (lint none),
    .ofFragment "legacy" (lint (some "jenkins"))]

def environment : Option Environment := some (Environment.dev none (some "team"))

end Shop

theorem generate_outcome_of_shop :
    (∀ s ∈ Shop.schedulers, s.spec.Canonical) ∧
      (∃ e, generate [Shop.repository] [Shop.group "backend", Shop.group "legacy"] Shop.schedulers
        Shop.environment = .error e) ∧
      ∃ leaf, generate [Shop.repository] [Shop.group "backend"] Shop.schedulers Shop.environment =
          .ok [leaf] ∧
        Fragment.build [Shop.team, Shop.lint none] = .ok leaf.fragment := by
  have hcanonical : ∀ s ∈ Shop.schedulers, s.spec.Canonical := by decide
  refine ⟨hcanonical, ?_, ?_⟩
  · obtain ⟨hfails, -⟩ := generate_outcome [Shop.repository]
      [Shop.group "backend", Shop.group "legacy"] Shop.schedulers Shop.environment {} hcanonical
    refine hfails.2 (Or.inr ⟨_, List.mem_singleton_self _, ?_⟩)
    let legacy : ChainLink := {
      level := .group
      source := "legacy"
      group := some "legacy"
      fragment := Shop.lint (some "jenkins") }
    let backend : ChainLink := {
      level := .group
      source := "backend"
      group := some "backend"
      fragment := Shop.lint none }
    have hsublist : [legacy, backend].Sublist
        [{ level := .team, source := "team", fragment := Shop.team }, legacy, backend] :=
      List.sublist_cons_self _ _
    exact ⟨legacy, backend, hsublist, rfl, rfl, .presubmits, _, List.mem_singleton_self _, _,
      List.mem_singleton_self _, rfl, rfl⟩
  · obtain ⟨hfails, hleaves⟩ := generate_outcome [Shop.repository] [Shop.group "backend"]
      Shop.schedulers Shop.environment {} hcanonical
    have hnone : ¬GroupConflict ((Resolver.ofResources [Shop.group "backend"] Shop.schedulers
        Shop.environment {}).chain Shop.repository) := by
      rw [not_groupConflict_iff]
      exact List.pairwise_singleton _ _
    cases hgenerated : generate [Shop.repository] [Shop.group "backend"] Shop.schedulers
        Shop.environment with
    | error e =>
      obtain hempty | ⟨repository, hmem, hconflict⟩ := hfails.1 ⟨e, hgenerated⟩
      · cases hempty
      · rw [List.mem_singleton.1 hmem] at hconflict
        exact absurd hconflict hnone
    | ok leaves =>
      obtain ⟨-, leafOf, hleaf, hperm, -⟩ := hleaves leaves hgenerated
      obtain ⟨-, -, hbuild⟩ := hleaf Shop.repository (List.mem_singleton_self _) (by exact nofun)
      have hleaves : leaves = [leafOf Shop.repository] := List.perm_singleton.1 hperm
      exact ⟨leafOf Shop.repository, by rw [hleaves], hbuild⟩

end SchedulerPolicy
