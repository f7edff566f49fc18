import SchedulerPolicy.Proofs.Documents.Names
import SchedulerPolicy.Proofs.Resolution.Generate

/-!
# Leaves of recovered schedulers

What `recover` makes of two documents is meant to be resolved like any other resources. Whatever the
documents, the outcome is known (`generate_recovered`): every repository that they name has a leaf,
in the order of keys, and its fragment is the policy of the repository laid over the policy of the
team.

Repositories are added one by one, and an added one takes nothing away from those before it: the
scheduler of the team stays where it was, and every repository still finds its own
(`Recovered.Complete`). Only the freshness of names is needed for that. The chain of a repository
then has two links. They cannot be in conflict, for the policy of the team has periodic jobs only
and that of a repository has none.
-/

namespace SchedulerPolicy

/-- The leaf of a repository that documents name: its own policy over that of the team. -/
def Recover.leaf (d : Documents) (org repo : String) : Leaf where
  org := org
  repo := repo
  fragment := onto (Recover.repositoryFragment d (RepoKey.join org repo) org repo)
    (Recover.teamFragment d.jobs)

variable {d : Documents}

/-! ### The schedulers of recovered repositories -/

namespace Recovered

/-- Every repository refers to a scheduler that holds its policy, and the scheduler of the team is
still there. -/
structure Complete (d : Documents) (r : Recovered) : Prop where
  default : r.defaultScheduler = defaultSchedulerName
  team : r.schedulers.get? defaultSchedulerName = some (Recover.teamFragment d.jobs)
  own : ∀ s ∈ r.repositories, ∃ name, SourceRepository.scheduler? s = some name ∧
    r.schedulers.get? name =
      some (Recover.repositoryFragment d (SourceRepository.key s) s.spec.org s.spec.repo)

theorem Complete.ofTeam (d : Documents) : Complete d (ofTeam d.jobs) where
  default := rfl
  team := by
    unfold Recovered.ofTeam
    rw [Keyed.get?_ofList]
    rfl
  own := List.forall_mem_nil _

/-- **One repository more.** Its scheduler takes the place of no other. -/
theorem Complete.addRepository {r : Recovered} (h : Complete d r) (org repo : String) :
    Complete d (r.addRepository d (RepoKey.join org repo) org repo) := by
  let name := freeName r.schedulers (resourceName org repo)
  have hfree : r.schedulers.get? name = none := get?_freeName r.schedulers _
  -- a scheduler that was there is there still
  have hstays : ∀ {other f}, r.schedulers.get? other = some f →
      (r.addRepository d (RepoKey.join org repo) org repo).schedulers.get? other = some f := by
    intro other f hf
    have hne : other ≠ name := by
      rintro rfl
      rw [hfree] at hf
      cases hf
    unfold Recovered.addRepository
    rw [Keyed.get?_insert, if_neg hne, hf]
  refine ⟨h.default, hstays h.team, fun s hs => ?_⟩
  -- a repository was there before, or it is the new one, which finds the scheduler just added
  rcases List.mem_append.1 hs with hs | hs
  · obtain ⟨other, hother, hf⟩ := h.own s hs
    exact ⟨other, hother, hstays hf⟩
  · rw [List.mem_singleton.1 hs]
    refine ⟨name, ?_, ?_⟩
    · change (if Text.isBlank name then none else some name) = some name
      rw [isBlank_freeName r.schedulers org repo]
      rfl
    · unfold Recovered.addRepository
      rw [Keyed.get?_insert, if_pos rfl]
      rfl

/-- The repositories stand in the order in which they were added. -/
theorem places_addRepository (r : Recovered) (key org repo : String) :
    (r.addRepository d key org repo).repositories.map (fun s => (s.spec.org, s.spec.repo)) =
      r.repositories.map (fun s => (s.spec.org, s.spec.repo)) ++ [(org, repo)] := by
  unfold Recovered.addRepository
  rw [List.map_append]
  rfl

/-- All repositories, each under the key of its organisation and name. -/
theorem foldl_addRepository {es : List (String × String × String)}
    (hkeys : ∀ e ∈ es, e.1 = RepoKey.join e.2.1 e.2.2) {r : Recovered} (h : Complete d r) :
    Complete d (es.foldl (fun r e => r.addRepository d e.1 e.2.1 e.2.2) r) ∧
      (es.foldl (fun r e => r.addRepository d e.1 e.2.1 e.2.2) r).repositories.map
          (fun s => (s.spec.org, s.spec.repo)) =
        r.repositories.map (fun s => (s.spec.org, s.spec.repo)) ++ es.map (·.2) := by
  induction es generalizing r with
  | nil => exact ⟨h, (List.append_nil _).symm⟩
  | cons e es ih =>
    rw [List.forall_mem_cons] at hkeys
    obtain ⟨hfirst, hrest⟩ := hkeys
    rw [List.foldl_cons]
    have hadd : Complete d (r.addRepository d e.1 e.2.1 e.2.2) := by
      rw [hfirst]
      exact h.addRepository e.2.1 e.2.2
    -- the invariant that the induction carries is completeness, of what is there so far
    obtain ⟨hcomplete, hplaces⟩ := ih hrest hadd
    refine ⟨hcomplete, ?_⟩
    rw [hplaces, places_addRepository, List.append_assoc]
    rfl

/-- The schedulers are read back from their resources. -/
theorem ofList_schedulerResources (r : Recovered) :
    SchedulerIndex.ofList r.schedulerResources = r.schedulers := by
  unfold SchedulerIndex.ofList schedulerResources
  rw [List.map_map]
  exact (congrArg Keyed.ofList (List.map_id _)).trans (Keyed.ofList_entries r.schedulers)

end Recovered

/-! ### The leaf of a repository -/

/-- The policy of a repository can always be filled in from that of the team. -/
theorem fill_teamFragment (key org repo : String) :
    fill (Recover.repositoryFragment d key org repo) (Recover.teamFragment d.jobs) =
      .ok (onto (Recover.repositoryFragment d key org repo) (Recover.teamFragment d.jobs)) := by
  refine Fragment.fill_eq_ok_iff.2 ⟨?_, rfl⟩
  -- in every section of jobs one of the two has no set
  rintro (_ | _ | _) own hown donor hdonor
  · cases hdonor
  · cases hdonor
  · cases hown

/-- The environment in which the recovered schedulers are resolved. -/
def Recovered.environment (r : Recovered) : Option Environment :=
  some (Environment.dev none (some r.defaultScheduler))

/-- The scopes of a recovered repository: the team, then the repository itself. -/
theorem scopes_recovered {r : Recovered} (h : r.Complete d) {s : SourceRepository}
    (hs : s ∈ r.repositories) {environment : Environment}
    (hdefault : environment.defaultScheduler? = some r.defaultScheduler) (bootstrap : Bootstrap) :
    ∃ name, ((Resolver.ofResources [] r.schedulerResources (some environment)
        bootstrap).scopes s).chain = [
      { level := .team
        source := defaultSchedulerName
        fragment := Recover.teamFragment d.jobs },
      { level := .repository
        source := name
        fragment := Recover.repositoryFragment d (SourceRepository.key s) s.spec.org
          s.spec.repo }] := by
  obtain ⟨name, hname, hown⟩ := h.own s hs
  refine ⟨name, ?_⟩
  -- there is no group, so only two slots are filled
  have hdefault' : (some environment).bind Environment.defaultScheduler? =
      some defaultSchedulerName := hdefault.trans (congrArg some h.default)
  unfold Resolver.ofResources Resolver.scopes
  simp only [hdefault', hname, r.ofList_schedulerResources]
  change Option.toList ((r.schedulers.get? defaultSchedulerName).map _) ++ [] ++
    Option.toList ((r.schedulers.get? name).map _) ++ [] = _
  rw [h.team, hown]
  rfl

/-- What the scopes of a recovered repository come down to. -/
theorem foldChain_scopes_recovered {r : Recovered} (h : r.Complete d) {s : SourceRepository}
    (hs : s ∈ r.repositories) {environment : Environment}
    (hdefault : environment.defaultScheduler? = some r.defaultScheduler) (bootstrap : Bootstrap) :
    foldChain ((Resolver.ofResources [] r.schedulerResources (some environment)
        bootstrap).scopes s).chain = .ok (Recover.leaf d s.spec.org s.spec.repo).fragment := by
  obtain ⟨name, hchain⟩ := scopes_recovered h hs hdefault bootstrap
  -- the chain is the team and the repository, with no group between them
  have hlevels : ∀ l ∈ ((Resolver.ofResources [] r.schedulerResources (some environment)
      bootstrap).scopes s).chain, l.level ≠ .group := by
    rw [hchain, List.forall_mem_cons, List.forall_mem_singleton]
    exact ⟨nofun, nofun⟩
  rw [foldChain_of_no_group hlevels, hchain]
  unfold fragments
  rw [List.map_cons, List.map_singleton, Fragment.build_cons, Fragment.build_singleton]
  exact fill_teamFragment _ _ _

theorem leaf?_recovered {r : Recovered} (h : r.Complete d) (bootstrap : Bootstrap) :
    ∀ s ∈ r.repositories,
      (Resolver.ofResources [] r.schedulerResources r.environment bootstrap).leaf? s =
        .ok (some (Recover.leaf d s.spec.org s.spec.repo)) := by
  intro s hs
  have hdefault : (Environment.dev none (some r.defaultScheduler)).defaultScheduler? =
      some r.defaultScheduler := by
    rw [h.default]
    decide
  obtain ⟨name, hchain⟩ := scopes_recovered h hs hdefault bootstrap
  have hfold := foldChain_scopes_recovered h hs hdefault bootstrap
  -- without a URL there is no boot repository, so the scopes are the whole chain
  have hscopes : (Resolver.ofResources [] r.schedulerResources r.environment bootstrap).chain s =
      ((Resolver.ofResources [] r.schedulerResources
        (some (Environment.dev none (some r.defaultScheduler))) bootstrap).scopes s).chain := rfl
  have hne :
      (Resolver.ofResources [] r.schedulerResources r.environment bootstrap).chain s ≠ [] := by
    rw [hscopes, hchain]
    exact List.cons_ne_nil _ _
  exact Resolver.leaf?_of_foldChain hne (hscopes ▸ hfold)

/-! ### All leaves -/

/-- The repositories can be told when every mention names one, or an organisation. -/
theorem exists_repositories_iff :
    (∃ found, d.repositories = .ok found) ↔ ∀ m ∈ d.mentions, ∃ p, m.repository? = .ok p := by
  rw [← exists_mapM_eq_ok_iff]
  unfold Documents.repositories
  cases d.mentions.mapM Mention.repository? with
  | error e => exact ⟨nofun, nofun⟩
  | ok places => exact ⟨fun _ => ⟨places, rfl⟩, fun _ => ⟨_, rfl⟩⟩

/-- Every repository that documents name is named by one of their mentions, and stands under its own
key. -/
theorem mention_of_repositories {found : Keyed (String × String)} (h : d.repositories = .ok found) :
    ∀ e ∈ found.entries,
      e.1 = RepoKey.join e.2.1 e.2.2 ∧ ∃ m ∈ d.mentions, m.repository? = .ok (some e.2) := by
  rintro ⟨key, place⟩ he
  unfold Documents.repositories at h
  obtain ⟨places, hplaces, hfound⟩ := bind_eq_ok_iff.1 h
  rw [← Except.ok.inj hfound] at he
  -- what is found under a key was listed under it, and the list is that of the mentions
  have hmem := Keyed.mem_of_get?_ofList (Keyed.get?_eq_some_iff.2 he)
  obtain ⟨p, hp, heq⟩ := List.mem_map.1 hmem
  obtain ⟨rfl, rfl⟩ := Prod.mk.inj heq
  obtain ⟨place?, hplace, rfl⟩ := List.mem_filterMap.1 hp
  exact ⟨rfl, (mem_of_mapM_eq_ok hplaces).1 hplace⟩

/-- The repositories of documents stand under their keys. -/
theorem key_of_repositories {found : Keyed (String × String)} (h : d.repositories = .ok found) :
    ∀ e ∈ found.entries, e.1 = RepoKey.join e.2.1 e.2.2 :=
  fun e he => (mention_of_repositories h e he).1

/-- What is recovered from documents whose keys are in order. -/
theorem recover_eq_ok {found : Keyed (String × String)} (h : d.repositories = .ok found) :
    ∃ r, recover d = .ok r ∧ r.Complete d ∧
      r.repositories.map (fun s => (s.spec.org, s.spec.repo)) = found.entries.map (·.2) := by
  have hfold := Recovered.foldl_addRepository (key_of_repositories h) (Recovered.Complete.ofTeam d)
  refine ⟨_, ?_, hfold.1, hfold.2⟩
  unfold recover
  rw [h]
  rfl

/-- Documents are refused for a mention only. -/
theorem exists_recover_iff :
    (∃ r, recover d = .ok r) ↔ ∀ m ∈ d.mentions, ∃ p, m.repository? = .ok p := by
  rw [← exists_repositories_iff]
  unfold recover
  cases d.repositories with
  | error e => exact ⟨nofun, nofun⟩
  | ok found => exact ⟨fun _ => ⟨found, rfl⟩, fun _ => ⟨_, rfl⟩⟩

/-- Whatever is recovered, its repositories are those that the documents name. -/
theorem found_of_recover {r : Recovered} (h : recover d = .ok r) :
    ∃ found, d.repositories = .ok found ∧ r.Complete d ∧
      r.repositories.map (fun s => (s.spec.org, s.spec.repo)) = found.entries.map (·.2) := by
  obtain ⟨found, hfound⟩ := exists_repositories_iff.2 (exists_recover_iff.1 ⟨r, h⟩)
  obtain ⟨r', hr', hrest⟩ := recover_eq_ok hfound
  obtain rfl : r = r' := Except.ok.inj (h.symm.trans hr')
  exact ⟨found, hfound, hrest⟩

theorem complete_of_recover {r : Recovered} (h : recover d = .ok r) : r.Complete d := by
  obtain ⟨-, -, hcomplete, -⟩ := found_of_recover h
  exact hcomplete

/-- The repositories that are recovered have the keys that were found. -/
theorem keys_recovered {found : Keyed (String × String)} (h : d.repositories = .ok found)
    {r : Recovered}
    (hplaces : r.repositories.map (fun s => (s.spec.org, s.spec.repo)) = found.entries.map (·.2)) :
    r.repositories.map SourceRepository.key = found.keys := by
  calc r.repositories.map SourceRepository.key
      = (r.repositories.map fun s => (s.spec.org, s.spec.repo)).map fun p =>
          RepoKey.join p.1 p.2 := by rw [List.map_map]; rfl
    _ = found.entries.map fun e => RepoKey.join e.2.1 e.2.2 := by rw [hplaces, List.map_map]; rfl
    _ = found.keys := List.map_congr_left fun e he => (key_of_repositories h e he).symm

/-- Recovered repositories are in the order of their keys. -/
theorem ascending_recovered {r : Recovered} (h : recover d = .ok r) :
    r.repositories.Pairwise fun s t => SourceRepository.key s < SourceRepository.key t := by
  obtain ⟨found, hfound, -, hplaces⟩ := found_of_recover h
  have hkeys : (r.repositories.map SourceRepository.key).Pairwise (· < ·) := by
    rw [keys_recovered hfound hplaces]
    exact List.pairwise_map.2 found.ascending
  exact List.pairwise_map.1 hkeys

/-- Leaves of recovered repositories are generated in the order of the repositories. -/
theorem generate_of_recover {r : Recovered} (h : recover d = .ok r) (hne : r.repositories ≠ [])
    {environment : Option Environment} {bootstrap : Bootstrap} {leafOf : SourceRepository → Leaf}
    (hkey : ∀ s ∈ r.repositories, (leafOf s).key = SourceRepository.key s)
    (hleaf : ∀ s ∈ r.repositories,
      (Resolver.ofResources [] r.schedulerResources environment bootstrap).leaf? s =
        .ok (some (leafOf s))) :
    generate r.repositories [] r.schedulerResources environment bootstrap =
      .ok (r.repositories.map leafOf) := by
  refine generate_eq_ok hne hleaf (List.pairwise_map.2 ?_)
  refine (ascending_recovered h).imp_of_mem fun {s t} hs ht hlt => ?_
  rw [hkey s hs, hkey t ht]
  exact (String.le_total _ _).resolve_right fun hle => String.not_lt.2 hle hlt

/-- **What is generated from recovered schedulers.** Every repository that the documents name has a
leaf, in the order of keys, with its own policy laid over that of the team. -/
theorem generate_recovered {found : Keyed (String × String)} (h : d.repositories = .ok found)
    (hne : found.entries ≠ []) :
    ∃ r, recover d = .ok r ∧ ∀ bootstrap,
      generate r.repositories [] r.schedulerResources r.environment bootstrap =
        .ok (found.entries.map fun e => Recover.leaf d e.2.1 e.2.2) := by
  obtain ⟨r, hrecover, hcomplete, hplaces⟩ := recover_eq_ok h
  refine ⟨r, hrecover, fun bootstrap => ?_⟩
  have hrepositories : r.repositories ≠ [] := by
    intro hnil
    rw [hnil] at hplaces
    exact hne (List.map_eq_nil_iff.1 hplaces.symm)
  have hleaves : (r.repositories.map fun s => Recover.leaf d s.spec.org s.spec.repo) =
      found.entries.map fun e => Recover.leaf d e.2.1 e.2.2 := by
    calc (r.repositories.map fun s => Recover.leaf d s.spec.org s.spec.repo)
        = (r.repositories.map fun s => (s.spec.org, s.spec.repo)).map fun p =>
            Recover.leaf d p.1 p.2 := by rw [List.map_map]; rfl
      _ = (found.entries.map (·.2)).map fun p => Recover.leaf d p.1 p.2 := by rw [hplaces]
      _ = found.entries.map fun e => Recover.leaf d e.2.1 e.2.2 := List.map_map
  rw [← hleaves]
  exact generate_of_recover hrecover hrepositories (fun _ _ => rfl)
    (leaf?_recovered hcomplete bootstrap)

end SchedulerPolicy
