import SchedulerPolicy.Proofs.Resolution.Order

/-!
# What is announced, and what is looked up

Which schedulers a repository refers to, on which levels and in which order, is settled by the
environment, the groups and the repository itself. The index of schedulers comes in only where a
name that is announced is looked up, and the chain is the list of what is found
(`Resolver.chain_scopes_eq`).

So an edit of one scheduler can only be seen in a chain that has a link looked up under its name
(`Resolver.chain_eq_of_agree`). A name that is announced but not found stands for no link, and it is
found after the edit exactly when it was before.
-/

namespace SchedulerPolicy

/-- A scheduler that a scope refers to, whether it exists or not. -/
structure Announcement where
  level : Level
  scheduler : String
  group : Option String := none

/-- The link that an announcement comes to when its scheduler exists. -/
def Announcement.link? (index : SchedulerIndex) (a : Announcement) : Option ChainLink :=
  (index.get? a.scheduler).map fun fragment =>
    { level := a.level, source := a.scheduler, group := a.group, fragment }

/-- A chain has a link that was looked up under a name. What the bootstrap injects is not looked
up. -/
def LooksUp (chain : List ChainLink) (name : String) : Prop :=
  ∃ l ∈ chain, l.level ≠ .bootstrap ∧ l.source = name

/-- Two indices that differ at one name at most, and find something there in both or in neither. -/
structure AgreeBeside (name : String) (index index' : SchedulerIndex) : Prop where
  elsewhere : ∀ other, other ≠ name → index.get? other = index'.get? other
  found : (index.get? name).isSome = (index'.get? name).isSome

namespace Resolver

variable {r r' : Resolver} {s : SourceRepository}

/-- The scheduler that a group announces, if it announces one. -/
def announcement? (group : SourceRepositoryGroup) : Option Announcement :=
  (SourceRepositoryGroup.scheduler? group).map fun scheduler =>
    { level := .group, scheduler, group := some group.name }

/-- What is announced for a repository, lowest precedence first. -/
def announcements (r : Resolver) (s : SourceRepository) : List Announcement :=
  let groups := r.groups.filter (SourceRepositoryGroup.contains · s.name)
  (r.teamDefault.map fun scheduler => { level := .team, scheduler }).toList ++
    (groups.filterMap announcement?).reverse ++
    ((SourceRepository.scheduler? s).map fun scheduler =>
      { level := .repository, scheduler }).toList

/-- Groups are announced from below, each under the earlier ones. -/
theorem announceGroups_eq (groups : List SourceRepositoryGroup) (b : ChainBuilder) :
    groups.foldl announceGroup b =
      { b with groups :=
          (groups.filterMap announcement?).reverse.filterMap (Announcement.link? b.schedulers) ++
            b.groups } := by
  induction groups generalizing b with
  | nil => rfl
  | cons group groups ih =>
    rw [List.foldl_cons, List.filterMap_cons]
    cases hscheduler : SourceRepositoryGroup.scheduler? group with
    | none =>
      -- a group without a scheduler announces nothing
      have hnone : announcement? group = none := by
        unfold announcement?
        rw [hscheduler]
        rfl
      have hsame : announceGroup b group = b := by
        unfold announceGroup
        rw [hscheduler]
      rw [hnone, hsame, ih]
    | some scheduler =>
      have hsome : announcement? group =
          some { level := .group, scheduler, group := some group.name } := by
        unfold announcement?
        rw [hscheduler]
        rfl
      have hannounced : announceGroup b group = b.withGroup group.name scheduler := by
        unfold announceGroup
        rw [hscheduler]
      rw [hsome, hannounced, ih]
      dsimp only
      rw [List.reverse_cons, List.filterMap_append]
      unfold ChainBuilder.withGroup ChainBuilder.link?
      rw [List.filterMap_cons, List.filterMap_nil]
      unfold Announcement.link?
      -- what is announced is found and put below, or it stands for no link
      cases b.schedulers.get? scheduler with
      | none =>
        dsimp only [Option.map_none]
        rw [List.append_nil]
      | some fragment =>
        dsimp only [Option.map_some]
        rw [List.append_assoc]
        rfl

/-- A slot holds what is found of an announcement, if there is one. -/
theorem toList_bind_link? {α : Type} (index : SchedulerIndex) (scheduler : Option α)
    (announcement : α → Announcement) :
    (scheduler.bind fun name => (announcement name).link? index).toList =
      (scheduler.map announcement).toList.filterMap (Announcement.link? index) := by
  cases scheduler with
  | none => rfl
  | some name =>
    rw [Option.bind_some, Option.map_some, Option.toList_some, List.filterMap_cons,
      List.filterMap_nil]
    cases (announcement name).link? index <;> rfl

/-- **The chain of the scopes is what is found of what they announce.** -/
theorem chain_scopes_eq (r : Resolver) (s : SourceRepository) :
    (r.scopes s).chain = (r.announcements s).filterMap (Announcement.link? r.schedulers) := by
  -- the team and the repository have a slot each, which stays empty when nothing is announced
  have hteam : (r.scopes s).team = r.teamDefault.bind fun scheduler =>
      Announcement.link? r.schedulers { level := .team, scheduler } := by
    unfold scopes
    dsimp only
    rw [announceGroups_eq]
    cases r.teamDefault <;> cases SourceRepository.scheduler? s <;> rfl
  have hown : (r.scopes s).own = (SourceRepository.scheduler? s).bind fun scheduler =>
      Announcement.link? r.schedulers { level := .repository, scheduler } := by
    unfold scopes
    dsimp only
    rw [announceGroups_eq]
    cases r.teamDefault <;> cases SourceRepository.scheduler? s <;> rfl
  have hgroups : (r.scopes s).groups =
      ((r.groups.filter (SourceRepositoryGroup.contains · s.name)).filterMap
        announcement?).reverse.filterMap (Announcement.link? r.schedulers) := by
    unfold scopes
    dsimp only
    rw [announceGroups_eq]
    cases r.teamDefault <;> cases SourceRepository.scheduler? s <;> exact List.append_nil _
  unfold ChainBuilder.chain announcements
  rw [hteam, hgroups, hown, r.bootstrap_scopes s, Option.toList_none, List.append_nil,
    toList_bind_link?, toList_bind_link?, List.filterMap_append, List.filterMap_append]

/-- The chain of a repository is that of its scopes, and of the boot repository the injection stands
above them. -/
theorem chain_eq_append (r : Resolver) (s : SourceRepository) :
    r.chain s = (r.announcements s).filterMap (Announcement.link? r.schedulers) ++
      if r.isBoot s then
        [{ level := .bootstrap, source := "bootstrap", fragment := r.injection }]
      else [] := by
  rw [chain_eq, ← chain_scopes_eq]
  split
  · exact ChainBuilder.chain_withBootstrap (r.bootstrap_scopes s) r.injection
  · rw [List.append_nil]

/-- A scheduler that is announced and found has been looked up. -/
theorem looksUp_of_get? {a : Announcement} {fragment : Fragment} (ha : a ∈ r.announcements s)
    (hget : r.schedulers.get? a.scheduler = some fragment) :
    LooksUp (r.chain s) a.scheduler := by
  let link : ChainLink :=
    { level := a.level, source := a.scheduler, group := a.group, fragment }
  have hlink : a.link? r.schedulers = some link := by
    unfold Announcement.link?
    rw [hget]
    rfl
  have hmem : link ∈ (r.scopes s).chain := by
    rw [chain_scopes_eq]
    exact List.mem_filterMap.2 ⟨a, ha, hlink⟩
  -- the scopes are the chain without its injection
  rw [← filter_chain] at hmem
  obtain ⟨hchain, hlevel⟩ := List.mem_filter.1 hmem
  exact ⟨link, hchain, bne_iff_ne.1 hlevel, rfl⟩

/-- **An edit that is not looked up is not seen.** The chain of a repository is the same against two
indices that differ at one name, unless it has a link that was looked up under this name. -/
theorem chain_eq_of_agree {name : String} {index : SchedulerIndex}
    (hagree : AgreeBeside name r.schedulers index) (h : ¬LooksUp (r.chain s) name) :
    r.chain s = { r with schedulers := index }.chain s := by
  have hlink : ∀ a ∈ r.announcements s, a.link? r.schedulers = a.link? index := by
    intro a ha
    have hget : r.schedulers.get? a.scheduler = index.get? a.scheduler := by
      by_cases hname : a.scheduler = name
      · -- a name that is announced and not looked up is not found, nor is it after the edit
        subst hname
        cases hbefore : r.schedulers.get? a.scheduler with
        | some fragment => exact absurd (looksUp_of_get? ha hbefore) h
        | none =>
          have hfound := hagree.found
          rw [hbefore, Option.isSome_none] at hfound
          exact (Option.not_isSome_iff_eq_none.1 (Bool.not_eq_true _ ▸ hfound.symm)).symm
      · exact hagree.elsewhere a.scheduler hname
    unfold Announcement.link?
    rw [hget]
  -- what is announced, and where the injection goes, does not depend on the index
  rw [chain_eq_append, chain_eq_append, List.filterMap_congr hlink]
  rfl

end Resolver

/-! ### One scheduler is edited -/

/-- What an index finds: a later scheduler of a name counts, then the one in the middle, then an
earlier one. -/
theorem get?_ofList_append_cons (before after : List Scheduler) (s : Scheduler) (name : String) :
    (SchedulerIndex.ofList (before ++ s :: after)).get? name =
      ((SchedulerIndex.ofList after).get? name).or
        ((if name = s.name then some s.spec else none).or
          ((SchedulerIndex.ofList before).get? name)) := by
  unfold SchedulerIndex.ofList
  rw [Keyed.get?_ofList, Keyed.get?_ofList, Keyed.get?_ofList, List.map_append, List.map_cons,
    List.reverse_append, List.reverse_cons, List.lookup_append, List.lookup_append, Option.or_assoc,
    List.lookup_cons, List.lookup_nil]
  congr 2
  by_cases hname : name = s.name
  · rw [if_pos hname, beq_iff_eq.2 hname]
  · rw [if_neg hname, beq_false_of_ne hname]

/-- The index finds the same under every name but that of the scheduler that is edited, and under
this name it finds something before and after. -/
theorem agreeBeside_of_edit (before after : List Scheduler) (s : Scheduler) (f : Fragment) :
    AgreeBeside s.name (SchedulerIndex.ofList (before ++ s :: after))
      (SchedulerIndex.ofList (before ++ { s with spec := f } :: after)) where
  elsewhere other hne := by
    have hne' : other ≠ Resource.name { s with spec := f } := hne
    rw [get?_ofList_append_cons, get?_ofList_append_cons, if_neg hne, if_neg hne']
  found := by
    have hname : s.name = Resource.name { s with spec := f } := rfl
    rw [get?_ofList_append_cons, get?_ofList_append_cons, if_pos rfl, if_pos hname]
    simp only [Option.isSome_or, Option.isSome_some, Bool.true_or]

end SchedulerPolicy
