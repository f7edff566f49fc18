import Mathlib.Data.List.Nodup
import SchedulerPolicy.Document.Compiled
import SchedulerPolicy.Proofs.Resolution.InjectedLeaf

/-!
# The order of the resources

Resources come from files, and the order in which they are found means nothing. Neither does it
show: with one repository to a key and one scheduler to a name, resources in another order have the
same leaves, in the same order, and so the same documents (`generate_of_perm`).

Three steps take the order away. The index of schedulers is a map, and of one entry to a name none
is the last (`SchedulerIndex.ofList_of_perm`); of the members of a group only whether a repository
is one of them is asked (`SameMembers`); and a list with distinct keys is sorted in one way only
(`sorted_of_perm`). Only which repository fails first is left to the order, so of two runs that fail
the errors may differ.
-/

namespace SchedulerPolicy

/-! ### What is generated, repository by repository -/

namespace Resolver

variable {r r' : Resolver} {s : SourceRepository} {own : Leaf}

/-- The leaf of a repository, if it has one and nothing stands in its way. -/
def own? (r : Resolver) (s : SourceRepository) : Option Leaf := (r.leaf? s).toOption.join

theorem own?_eq_some_iff : r.own? s = some own ↔ r.leaf? s = .ok (some own) := by
  unfold own?
  cases r.leaf? s with
  | error e => exact ⟨nofun, nofun⟩
  | ok leaf =>
    change leaf = some own ↔ _
    rw [Except.ok.injEq]

/-- A leaf has the key of its repository. -/
theorem key_of_own? (h : r.own? s = some own) : own.key = SourceRepository.key s := by
  obtain ⟨horg, hrepo, -⟩ := foldChain_of_leaf? (own?_eq_some_iff.1 h)
  unfold Leaf.key SourceRepository.key
  rw [horg, hrepo]

/-- Of what a repository is resolved against only its chain counts. -/
theorem leaf?_congr (h : r.chain s = r'.chain s) : r.leaf? s = r'.leaf? s := by
  unfold leaf?
  rw [h]

end Resolver

section Generated

variable {repositories repositories' : List SourceRepository}
  {groups groups' : List SourceRepositoryGroup} {schedulers schedulers' : List Scheduler}
  {environment : Option Environment} {bootstrap : Bootstrap} {leaves : List Leaf}

/-- Leaves are generated when nothing stands in the way of any repository, and then they are the
leaves of the repositories. -/
theorem generate_eq_ok_iff {r : Resolver}
    (hr : Resolver.ofResources groups schedulers environment bootstrap = r) :
    generate repositories groups schedulers environment bootstrap = .ok leaves ↔
      repositories ≠ [] ∧ (∀ s ∈ repositories, ∃ leaf, r.leaf? s = .ok leaf) ∧
        leaves = (repositories.filterMap r.own?).mergeSort fun a b => a.key ≤ b.key := by
  subst hr
  let r := Resolver.ofResources groups schedulers environment bootstrap
  -- whatever the traversal finds are the leaves of the repositories
  have hown : ∀ {found}, repositories.mapM r.leaf? = .ok found →
      found.filterMap id = repositories.filterMap r.own? := fun hfound =>
    filterMap_id_of_mapM hfound
  constructor
  · intro h
    obtain ⟨found, hfound, rfl⟩ := mapM_leaf?_of_generate h
    refine ⟨?_, exists_mapM_eq_ok_iff.1 ⟨found, hfound⟩, by rw [hown hfound]⟩
    rintro rfl
    cases h
  · rintro ⟨hne, hleaf, rfl⟩
    obtain ⟨found, hfound⟩ := exists_mapM_eq_ok_iff.2 hleaf
    unfold generate
    rw [List.isEmpty_eq_false_iff.2 hne, if_neg Bool.false_ne_true]
    dsimp only
    rw [hfound, ← hown hfound]
    rfl

/-- Leaves of repositories with distinct keys have distinct keys. -/
theorem nodup_key_filterMap_own? (r : Resolver)
    (hkeys : (repositories.map SourceRepository.key).Nodup) :
    ((repositories.filterMap r.own?).map Leaf.key).Nodup := by
  refine List.pairwise_map.2 ((List.pairwise_map.1 hkeys).filterMap r.own? ?_)
  intro s s' hne own hown own' hown'
  rw [Resolver.key_of_own? hown, Resolver.key_of_own? hown']
  exact hne

theorem nodup_key_of_generate (hkeys : (repositories.map SourceRepository.key).Nodup)
    (h : generate repositories groups schedulers environment bootstrap = .ok leaves) :
    (leaves.map Leaf.key).Nodup := by
  obtain ⟨-, -, rfl⟩ := (generate_eq_ok_iff rfl).1 h
  exact ((List.mergeSort_perm _ _).map Leaf.key).nodup_iff.2 (nodup_key_filterMap_own? _ hkeys)

/-! ### Another order -/

/-- Leaves with distinct keys are sorted in one way, whatever order they come in. -/
theorem sorted_of_perm {xs ys : List Leaf} (hkeys : (xs.map Leaf.key).Nodup) (h : xs.Perm ys) :
    xs.mergeSort (fun a b => a.key ≤ b.key) = ys.mergeSort fun a b => a.key ≤ b.key := by
  have hsorted := ((List.mergeSort_perm xs fun a b => a.key ≤ b.key).trans h).trans
    (List.mergeSort_perm ys fun a b => a.key ≤ b.key).symm
  refine hsorted.eq_of_pairwise ?_ (pairwise_sorted xs) (pairwise_sorted ys)
  intro a b ha hb hab hba
  -- leaves that stand on either side of one another have one key, and so are one leaf
  have ha' : a ∈ xs := (List.mergeSort_perm _ _).mem_iff.1 ha
  have hb' : b ∈ xs := h.mem_iff.2 ((List.mergeSort_perm _ _).mem_iff.1 hb)
  exact List.inj_on_of_nodup_map hkeys ha' hb' (String.le_antisymm hab hba)

/-- An index does not depend on the order of schedulers with distinct names. -/
theorem SchedulerIndex.ofList_of_perm (hnames : (schedulers.map Resource.name).Nodup)
    (h : schedulers.Perm schedulers') :
    SchedulerIndex.ofList schedulers = SchedulerIndex.ofList schedulers' := by
  have hentries := h.map fun s : Scheduler => (s.name, s.spec)
  -- with one entry to a name an index finds the entries that there are
  have hfun : ∀ e ∈ schedulers.map fun s : Scheduler => (s.name, s.spec),
      ∀ e' ∈ schedulers.map fun s : Scheduler => (s.name, s.spec), e.1 = e'.1 → e = e' := by
    intro e he e' he' hname
    obtain ⟨s, hs, rfl⟩ := List.mem_map.1 he
    obtain ⟨s', hs', rfl⟩ := List.mem_map.1 he'
    rw [List.inj_on_of_nodup_map hnames hs hs' hname]
  have hfun' := fun e he e' he' => hfun e (hentries.mem_iff.2 he) e' (hentries.mem_iff.2 he')
  refine Keyed.ext_get? fun name => Option.ext fun f => ?_
  unfold SchedulerIndex.ofList
  rw [Keyed.get?_ofList_eq_some_iff hfun, Keyed.get?_ofList_eq_some_iff hfun', hentries.mem_iff]

/-- Two groups that differ in the order of their members only. -/
def SameMembers (g g' : SourceRepositoryGroup) : Prop :=
  ∃ members, g.spec.repositories.Perm members ∧
    g' = { g with spec := { g.spec with repositories := members } }

namespace SameMembers

variable {g g' : SourceRepositoryGroup}

theorem contains_eq (h : SameMembers g g') (name : String) :
    SourceRepositoryGroup.contains g name = SourceRepositoryGroup.contains g' name := by
  obtain ⟨members, hperm, rfl⟩ := h
  exact hperm.any_eq

/-- Groups with the same members are announced alike. -/
theorem announceGroup_eq (h : SameMembers g g') (b : ChainBuilder) :
    Resolver.announceGroup b g = Resolver.announceGroup b g' := by
  obtain ⟨members, -, rfl⟩ := h
  rfl

end SameMembers

/-- The groups of a repository are announced alike in whatever order their members stand. -/
theorem announceGroups_congr (h : List.Forall₂ SameMembers groups groups') (name : String)
    (b : ChainBuilder) :
    (groups.filter (SourceRepositoryGroup.contains · name)).foldl Resolver.announceGroup b =
      (groups'.filter (SourceRepositoryGroup.contains · name)).foldl Resolver.announceGroup b := by
  induction h generalizing b with
  | nil => rfl
  | cons hg _ ih =>
    -- a group is one of the repository's in both orders or in neither
    rw [List.filter_cons, List.filter_cons, hg.contains_eq]
    split
    · rw [List.foldl_cons, List.foldl_cons, hg.announceGroup_eq, ih]
    · exact ih b

/-- Every repository has its leaf, or fails, in whatever order the resources come. -/
theorem leaf?_ofResources_of_perm (environment : Option Environment) (bootstrap : Bootstrap)
    (hnames : (schedulers.map Resource.name).Nodup) (hschedulers : schedulers.Perm schedulers')
    (hgroups : List.Forall₂ SameMembers groups groups') :
    (Resolver.ofResources groups schedulers environment bootstrap).leaf? =
      (Resolver.ofResources groups' schedulers' environment bootstrap).leaf? := by
  funext s
  refine Resolver.leaf?_congr ?_
  unfold Resolver.chain Resolver.ofResources
  dsimp only
  rw [SchedulerIndex.ofList_of_perm hnames hschedulers, announceGroups_congr hgroups]
  rfl

/-- Resources have some documents: leaves are generated from them, and the leaves compile. -/
def Compiles (repositories : List SourceRepository) (groups : List SourceRepositoryGroup)
    (schedulers : List Scheduler) (environment : Option Environment) (bootstrap : Bootstrap)
    (d : Documents) : Prop :=
  ∃ leaves, generate repositories groups schedulers environment bootstrap = .ok leaves ∧
    compile leaves = .ok d

/-- **The order of the resources does not show.** With one repository to a key and one scheduler to
a name, resources in another order either have no leaves in both orders or have the very same
leaves in both, list for list; and they have the same documents. -/
theorem generate_of_perm (environment : Option Environment) (bootstrap : Bootstrap)
    (hkeys : (repositories.map SourceRepository.key).Nodup)
    (hnames : (schedulers.map Resource.name).Nodup)
    (hrepositories : repositories.Perm repositories') (hschedulers : schedulers.Perm schedulers')
    (hgroups : List.Forall₂ SameMembers groups groups') :
    (((∃ e, generate repositories groups schedulers environment bootstrap = .error e) ∧
        ∃ e, generate repositories' groups' schedulers' environment bootstrap = .error e) ∨
      ∃ leaves, generate repositories groups schedulers environment bootstrap = .ok leaves ∧
        generate repositories' groups' schedulers' environment bootstrap = .ok leaves) ∧
    ∀ d, Compiles repositories groups schedulers environment bootstrap d ↔
      Compiles repositories' groups' schedulers' environment bootstrap d := by
  -- one run has some leaves exactly when the other has
  have hiff : ∀ leaves,
      generate repositories groups schedulers environment bootstrap = .ok leaves ↔
        generate repositories' groups' schedulers' environment bootstrap = .ok leaves := by
    intro leaves
    have hne : repositories ≠ [] ↔ repositories' ≠ [] :=
      not_congr ⟨fun h => (h ▸ hrepositories).nil_eq.symm, fun h => (h ▸ hrepositories).eq_nil⟩
    have hleaf := leaf?_ofResources_of_perm environment bootstrap hnames hschedulers hgroups
    have hsorted := sorted_of_perm
      (nodup_key_filterMap_own?
        (Resolver.ofResources groups schedulers environment bootstrap) hkeys)
      (hrepositories.filterMap _)
    have hown : (Resolver.ofResources groups schedulers environment bootstrap).own? =
        (Resolver.ofResources groups' schedulers' environment bootstrap).own? := by
      funext s
      unfold Resolver.own?
      rw [hleaf]
    rw [generate_eq_ok_iff rfl, generate_eq_ok_iff rfl, ← hleaf, ← hown, ← hsorted]
    simp only [hne, hrepositories.mem_iff]
  refine ⟨?_, fun d => exists_congr fun leaves => and_congr_left' (hiff leaves)⟩
  cases h : generate repositories groups schedulers environment bootstrap with
  | ok leaves => exact Or.inr ⟨leaves, rfl, (hiff leaves).1 h⟩
  | error e =>
    -- leaves of the other run would be leaves of this one
    cases h' : generate repositories' groups' schedulers' environment bootstrap with
    | error e' => exact Or.inl ⟨⟨e, rfl⟩, ⟨e', rfl⟩⟩
    | ok leaves =>
      rw [(hiff leaves).2 h'] at h
      cases h

end Generated

namespace Shuffled

def repositories : List SourceRepository :=
  [.ofParts "depot" "acme" "depot" none, .ofParts "shop" "acme" "shop" (some "own")]

def team : Fragment := { plugins := some { items := ["trigger"] } }

def backend : Fragment := { plugins := some { items := ["approve"] } }

def own : Fragment := { plugins := some { items := ["lgtm"] } }

def schedulers : List Scheduler :=
  [.ofFragment "team" team, .ofFragment "backend" backend, .ofFragment "own" own]

/-- A group that both repositories belong to. -/
def group (members : List Reference) : SourceRepositoryGroup :=
  .ofSpec .sourceRepositoryGroup "backend"
    { repositories := members, scheduler := some (Reference.toScheduler "backend") }

def members : List Reference := [{ name := "depot" }, { name := "shop" }]

def environment : Option Environment := some (Environment.dev none (some "team"))

def leaves : List Leaf := [
  { org := "acme", repo := "depot", fragment := onto backend team },
  { org := "acme", repo := "shop", fragment := onto own (onto backend team) }]

theorem generate_repositories :
    generate repositories [group members] schedulers environment = .ok leaves := by
  have hleaves : repositories.mapM
      (Resolver.ofResources [group members] schedulers environment {}).leaf? =
        .ok (leaves.map some) := rfl
  have hsorted : leaves.Pairwise fun a b => a.key ≤ b.key := by decide
  exact generate_of_mapM (List.cons_ne_nil _ _) hleaves hsorted

theorem generate_of_perm_reversed :
    ((repositories.map SourceRepository.key).Nodup ∧ (schedulers.map Resource.name).Nodup ∧
      repositories.Perm repositories.reverse ∧ schedulers.Perm schedulers.reverse ∧
      List.Forall₂ SameMembers [group members] [group members.reverse]) ∧
    generate repositories [group members] schedulers environment = .ok leaves ∧
    generate repositories.reverse [group members.reverse] schedulers.reverse environment =
      .ok leaves := by
  have hkeys : (repositories.map SourceRepository.key).Nodup := by decide
  have hnames : (schedulers.map Resource.name).Nodup := by decide
  have hrepositories := (List.reverse_perm repositories).symm
  have hschedulers := (List.reverse_perm schedulers).symm
  have hgroups : List.Forall₂ SameMembers [group members] [group members.reverse] :=
    .cons ⟨members.reverse, (List.reverse_perm members).symm, rfl⟩ .nil
  refine ⟨⟨hkeys, hnames, hrepositories, hschedulers, hgroups⟩, generate_repositories, ?_⟩
  obtain ⟨⟨⟨e, he⟩, -⟩ | ⟨found, hfound, hfound'⟩, -⟩ := generate_of_perm
    environment {} hkeys hnames hrepositories hschedulers hgroups
  · rw [generate_repositories] at he
    cases he
  · rw [generate_repositories] at hfound
    rw [hfound', Except.ok.inj hfound]

end Shuffled

end SchedulerPolicy
