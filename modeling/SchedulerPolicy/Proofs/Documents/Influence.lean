import SchedulerPolicy.Proofs.Documents.SharedEntries
import SchedulerPolicy.Proofs.Resolution.Announcements

/-!
# What the edit of a scheduler can change

Of a team's schedulers one is edited, and leaves are generated and compiled before and after. What
the documents say about a repository is the same, unless the chain of the repository has a link that
was looked up under the name of the edited scheduler (`saysSame_of_edit`).

Two steps lead there. The leaf of such a repository is the same in both runs, as its chain is; and
among the leaves of either run it is the only one with its key and the only one at its place
(`itemAt_of_generate`). What other leaves say may change beyond recognition, and with them the
order of entries that repositories share. But of such an entry only its label counts here, and which
labels a repository has is settled by its own leaf (`mem_named_grouped`).
-/

namespace SchedulerPolicy

/-- Two documents say the same about a repository. Entries that repositories share are compared by
their labels, wherever they stand and whatever other repositories they name. -/
structure SaysSame (org repo : String) (d d' : Documents) : Prop where
  presubmits : d.jobs.presubmits.get? (RepoKey.join org repo) =
    d'.jobs.presubmits.get? (RepoKey.join org repo)
  postsubmits : d.jobs.postsubmits.get? (RepoKey.join org repo) =
    d'.jobs.postsubmits.get? (RepoKey.join org repo)
  plugins : d.plugins.plugins.get? (RepoKey.join org repo) =
    d'.plugins.plugins.get? (RepoKey.join org repo)
  externalPlugins : d.plugins.externalPlugins.get? (RepoKey.join org repo) =
    d'.plugins.externalPlugins.get? (RepoKey.join org repo)
  mergeMethod : d.jobs.keeper.mergeMethod.get? (RepoKey.join org repo) =
    d'.jobs.keeper.mergeMethod.get? (RepoKey.join org repo)
  contexts : d.jobs.keeper.contextOptions.repo? org repo =
    d'.jobs.keeper.contextOptions.repo? org repo
  protection : d.jobs.branchProtection.repo? org repo = d'.jobs.branchProtection.repo? org repo
  approve : d.plugins.approve.filter (·.names (RepoKey.join org repo)) =
    d'.plugins.approve.filter (·.names (RepoKey.join org repo))
  lgtm : d.plugins.lgtm.filter (·.names (RepoKey.join org repo)) =
    d'.plugins.lgtm.filter (·.names (RepoKey.join org repo))
  triggers : d.plugins.triggers.filter (·.names (RepoKey.join org repo)) =
    d'.plugins.triggers.filter (·.names (RepoKey.join org repo))
  searches :
    ((d.jobs.keeper.queries.filter (·.repos.contains (RepoKey.join org repo))).map
      Query.search).Perm
    ((d'.jobs.keeper.queries.filter (·.repos.contains (RepoKey.join org repo))).map Query.search)
  messages :
    ((d.plugins.welcome.filter (·.names (RepoKey.join org repo))).map (·.messageTemplate)).Perm
    ((d'.plugins.welcome.filter (·.names (RepoKey.join org repo))).map (·.messageTemplate))

/-! ### The documents of leaves with one item in common -/

section Leaves

variable {leaves leaves' : List Leaf}

/-- The labels that are found for a repository are those of its leaf, in whatever order. -/
theorem named_grouped_perm {κ : Type} [DecidableEq κ] (labelsOf : Leaf → List κ)
    (h : (leaves.map Leaf.key).Nodup) (h' : (leaves'.map Leaf.key).Nodup) {key : String}
    (hitem : itemAt Leaf.key leaves key = itemAt Leaf.key leaves' key) :
    (named key (grouped Leaf.key labelsOf leaves [])).Perm
      (named key (grouped Leaf.key labelsOf leaves' [])) := by
  -- a leaf with the key is the one that is found under it
  have hfound : ∀ {leaves : List Leaf}, (leaves.map Leaf.key).Nodup → ∀ x,
      x ∈ named key (grouped Leaf.key labelsOf leaves []) ↔
        ∃ l ∈ itemAt Leaf.key leaves key, x ∈ labelsOf l := by
    intro leaves hnodup x
    rw [mem_named_grouped]
    constructor
    · rintro ⟨l, hl, rfl, hx⟩
      exact ⟨l, itemAt_key hnodup hl, hx⟩
    · rintro ⟨l, hl, hx⟩
      obtain ⟨hmem, hkey⟩ := itemAt_eq_some hl
      exact ⟨l, hmem, hkey, hx⟩
  -- the labels stand without repeats, so it is enough that they are the same ones
  refine (List.perm_ext_iff_of_nodup (nodup_named (nodup_labels_grouped labelsOf leaves) key)
    (nodup_named (nodup_labels_grouped labelsOf leaves') key)).2 fun x => ?_
  rw [hfound h, hfound h', hitem]

/-- Of a list with one entry a leaf, the entries for a repository are those of its leaf. -/
theorem filter_entries_eq {ε ρ : Type} (repos : ε → List String) {rules : Leaf → Option ρ}
    {entry : String → ρ → ε} (hrepos : ∀ key r, repos (entry key r) = [key])
    (h : (leaves.map Leaf.key).Nodup) (h' : (leaves'.map Leaf.key).Nodup) {key : String}
    (hitem : itemAt Leaf.key leaves key = itemAt Leaf.key leaves' key) :
    (leaves.filterMap fun l => (rules l).map (entry l.key)).filter
        (fun e => (repos e).contains key) =
      (leaves'.filterMap fun l => (rules l).map (entry l.key)).filter
        fun e => (repos e).contains key := by
  have hnames : ∀ key r k, (repos (entry key r)).contains k = (key == k) := by
    intro key r k
    rw [hrepos, contains_singleton]
  rw [filter_filterMap_key h rules (fun e key => (repos e).contains key) hnames,
    filter_filterMap_key h' rules (fun e key => (repos e).contains key) hnames, hitem]

/-- Documents say the same about a repository when it has the same leaf in both lists. -/
theorem saysSame_of_itemAt_eq (h : (leaves.map Leaf.key).Nodup) (h' : (leaves'.map Leaf.key).Nodup)
    {org repo : String}
    (hkey : itemAt Leaf.key leaves (RepoKey.join org repo) =
      itemAt Leaf.key leaves' (RepoKey.join org repo))
    (hplace : itemAt Leaf.place leaves (org, repo) = itemAt Leaf.place leaves' (org, repo)) :
    SaysSame org repo (documents leaves) (documents leaves') where
  presubmits := by
    change (Compile.joinedByKey _ leaves).get? _ = (Compile.joinedByKey _ leaves').get? _
    rw [get?_joinedByKey h, get?_joinedByKey h', hkey]
  postsubmits := by
    change (Compile.joinedByKey _ leaves).get? _ = (Compile.joinedByKey _ leaves').get? _
    rw [get?_joinedByKey h, get?_joinedByKey h', hkey]
  plugins := by
    change (Compile.distinctByKey _ leaves).get? _ = (Compile.distinctByKey _ leaves').get? _
    rw [get?_distinctByKey h, get?_distinctByKey h', hkey]
  externalPlugins := by
    change (Compile.distinctByKey _ leaves).get? _ = (Compile.distinctByKey _ leaves').get? _
    rw [get?_distinctByKey h, get?_distinctByKey h', hkey]
  mergeMethod := by
    change (Compile.mergeMethods leaves).get? _ = (Compile.mergeMethods leaves').get? _
    rw [get?_mergeMethods h, get?_mergeMethods h', hkey]
  contexts := by
    change (Compile.contextTree leaves).repo? _ _ = (Compile.contextTree leaves').repo? _ _
    rw [repo?_contextTree h, repo?_contextTree h', hplace]
  protection := by
    change (protectionOf leaves).orgs.getIn? OrgProtection.repos (org, repo) =
      (protectionOf leaves').orgs.getIn? OrgProtection.repos (org, repo)
    rw [getIn?_protection h, getIn?_protection h', hplace]
  approve := filter_entries_eq ApproveEntry.repos (fun _ _ => rfl) h h' hkey
  lgtm := filter_entries_eq LgtmEntry.repos (fun _ _ => rfl) h h' hkey
  triggers := filter_entries_eq TriggerEntry.repos (fun _ _ => rfl) h h' hkey
  searches := by
    have hfound : ∀ leaves : List Leaf,
        ((documents leaves).jobs.keeper.queries.filter
          (·.repos.contains (RepoKey.join org repo))).map Query.search =
        named (RepoKey.join org repo) (grouped Leaf.key Leaf.searches leaves []) := by
      intro leaves
      rw [← map_pooled_queries, ← map_search_filter, List.map_map]
      rfl
    rw [hfound, hfound]
    exact named_grouped_perm Leaf.searches h h' hkey
  messages := by
    have hfound : ∀ leaves : List Leaf,
        ((documents leaves).plugins.welcome.filter (·.names (RepoKey.join org repo))).map
          (·.messageTemplate) =
        named (RepoKey.join org repo) (grouped Leaf.key Leaf.messages leaves []) := by
      intro leaves
      rw [map_message_filter, ← map_pooled_welcome]
      rfl
    rw [hfound, hfound]
    exact named_grouped_perm Leaf.messages h h' hkey

end Leaves

/-! ### Before and after the edit -/

section Runs

variable {repositories : List SourceRepository} {groups : List SourceRepositoryGroup}
  {environment : Option Environment} {bootstrap : Bootstrap}

/-- Among generated leaves the leaf of a repository is found wherever only its own leaf can be, be
it under a key or at a place; and if the repository has no leaf there is none. -/
theorem itemAt_of_generate {κ : Type} [DecidableEq κ] {schedulers : List Scheduler}
    {leaves : List Leaf} {place : Leaf → κ} {placeOf : SourceRepository → κ} {r : Resolver}
    (hr : Resolver.ofResources groups schedulers environment bootstrap = r)
    (hplace : ∀ s own, r.own? s = some own → place own = placeOf s)
    (hnodup : (repositories.map placeOf).Nodup)
    (h : generate repositories groups schedulers environment bootstrap = .ok leaves)
    {s : SourceRepository} (hs : s ∈ repositories) :
    itemAt place leaves (placeOf s) = r.own? s := by
  obtain ⟨-, -, rfl⟩ := (generate_eq_ok_iff hr).1 h
  have hmem : ∀ l, l ∈ (repositories.filterMap r.own?).mergeSort (fun a b => a.key ≤ b.key) ↔
      ∃ s ∈ repositories, r.own? s = some l := by
    intro l
    rw [(List.mergeSort_perm _ _).mem_iff, List.mem_filterMap]
  -- whatever is found is the leaf of a repository with this place, and that is the repository
  have hfound : ∀ l ∈ (repositories.filterMap r.own?).mergeSort (fun a b => a.key ≤ b.key),
      place l = placeOf s → r.own? s = some l := by
    intro l hl hplaced
    obtain ⟨s', hs', hown⟩ := (hmem l).1 hl
    have heq : placeOf s' = placeOf s := (hplace s' l hown).symm.trans hplaced
    rwa [← List.inj_on_of_nodup_map hnodup hs' hs heq]
  cases hitem : itemAt place ((repositories.filterMap r.own?).mergeSort fun a b => a.key ≤ b.key)
      (placeOf s) with
  | some l =>
    obtain ⟨hl, hplaced⟩ := itemAt_eq_some hitem
    exact (hfound l hl hplaced).symm
  | none =>
    cases hown : r.own? s with
    | none => rfl
    | some own =>
      -- the leaf would have been found
      have hown' := (hmem own).2 ⟨s, hs, hown⟩
      have hne := List.find?_eq_none.1 hitem own hown'
      exact absurd (beq_iff_eq.2 (hplace s own hown)) hne

/-- **What the edit of a scheduler can change.** Two runs over the same repositories with distinct
keys, groups, environment and bootstrap, whose schedulers differ in the fragment of one, say the
same about every repository whose chain has no link that was looked up under the name of this
scheduler. -/
theorem saysSame_of_edit {before after : List Scheduler} {s : Scheduler} (f : Fragment)
    {d d' : Documents} (hkeys : (repositories.map SourceRepository.key).Nodup)
    (hd : Compiles repositories groups (before ++ s :: after) environment bootstrap d)
    (hd' : Compiles repositories groups (before ++ { s with spec := f } :: after) environment
      bootstrap d')
    {repository : SourceRepository} (hrepository : repository ∈ repositories)
    (hchain : ¬LooksUp ((Resolver.ofResources groups (before ++ s :: after) environment
      bootstrap).chain repository) s.name) :
    SaysSame repository.spec.org repository.spec.repo d d' := by
  obtain ⟨leaves, hleaves, hcompile⟩ := hd
  obtain ⟨leaves', hleaves', hcompile'⟩ := hd'
  obtain ⟨-, rfl⟩ := compile_eq_ok_iff.1 hcompile
  obtain ⟨-, rfl⟩ := compile_eq_ok_iff.1 hcompile'
  -- the two resolvers, and the leaf of the repository, which is the same against both
  generalize hr : Resolver.ofResources groups (before ++ s :: after) environment bootstrap = r
    at hchain
  obtain ⟨r', hr'⟩ : ∃ r', Resolver.ofResources groups (before ++ { s with spec := f } :: after)
    environment bootstrap = r' := ⟨_, rfl⟩
  have hown : r.own? repository = r'.own? repository := by
    have hsame : r.chain repository = r'.chain repository := by
      subst hr hr'
      exact Resolver.chain_eq_of_agree (agreeBeside_of_edit before after s f) hchain
    unfold Resolver.own?
    rw [Resolver.leaf?_congr hsame]
  -- distinct keys mean distinct places, which is what the two trees are looked up by
  have hplaces : (repositories.map fun s => (s.spec.org, s.spec.repo)).Nodup :=
    List.Nodup.of_map (fun p => RepoKey.join p.1 p.2) (by rwa [List.map_map])
  have hkey : ∀ {r : Resolver} s own, r.own? s = some own → own.key = SourceRepository.key s :=
    fun _ _ => Resolver.key_of_own?
  have hplace : ∀ {r : Resolver} s own, r.own? s = some own →
      own.place = (s.spec.org, s.spec.repo) := by
    intro r s own h
    obtain ⟨horg, hrepo, -⟩ := Resolver.foldChain_of_leaf? (Resolver.own?_eq_some_iff.1 h)
    exact Prod.ext horg hrepo
  refine saysSame_of_itemAt_eq (nodup_key_of_generate hkeys hleaves)
    (nodup_key_of_generate hkeys hleaves') ?_ ?_
  · calc itemAt Leaf.key leaves (SourceRepository.key repository)
        = r.own? repository := itemAt_of_generate hr hkey hkeys hleaves hrepository
      _ = r'.own? repository := hown
      _ = itemAt Leaf.key leaves' (SourceRepository.key repository) :=
        (itemAt_of_generate hr' hkey hkeys hleaves' hrepository).symm
  · calc itemAt Leaf.place leaves (repository.spec.org, repository.spec.repo)
        = r.own? repository := itemAt_of_generate hr hplace hplaces hleaves hrepository
      _ = r'.own? repository := hown
      _ = itemAt Leaf.place leaves' (repository.spec.org, repository.spec.repo) :=
        (itemAt_of_generate hr' hplace hplaces hleaves' hrepository).symm

end Runs

namespace Edited

def urgent : Query := { labels := ["urgent"] }

def approved : Query := { labels := ["approved"] }

def team : Fragment := {
  plugins := some { items := ["trigger"] }
  merger := some { queries := some [urgent] } }

/-- The scheduler of the first repository before its edit, and after it with a search that goes in
front of the one that both repositories have. -/
def own (edited : Bool) : Fragment :=
  { merger := some { queries := if edited then some [approved] else none } }

def scheduler : Scheduler := Scheduler.ofFragment "own" (own false)

def schedulers (edited : Bool) : List Scheduler :=
  [Scheduler.ofFragment "team" team] ++ [{ scheduler with spec := own edited }]

def depot : SourceRepository := .ofParts "depot" "acme" "depot" (some "own")

def shop : SourceRepository := .ofParts "shop" "acme" "shop" none

def environment : Option Environment := some (Environment.dev none (some "team"))

def leaves (edited : Bool) : List Leaf := [
  { org := "acme", repo := "depot", fragment := onto (own edited) team },
  { org := "acme", repo := "shop", fragment := team }]

theorem compiles (edited : Bool) :
    Compiles [depot, shop] [] (schedulers edited) environment {}
      (documents (leaves edited)) := by
  have hleaves : [depot, shop].mapM
      (Resolver.ofResources [] (schedulers edited) environment {}).leaf? =
        .ok ((leaves edited).map some) := by
    cases edited <;> rfl
  have hsorted : (leaves edited).Pairwise fun a b => a.key ≤ b.key := by
    cases edited <;> decide
  have hnames : ∀ l ∈ leaves edited, Text.isBlank l.org = false ∧ Text.isBlank l.repo = false := by
    cases edited <;> decide
  exact ⟨_, generate_of_mapM (List.cons_ne_nil _ _) hleaves hsorted, compile_eq_ok hnames⟩

theorem saysSame_of_edit_own :
    (([depot, shop].map SourceRepository.key).Nodup ∧ shop ∈ [depot, shop] ∧
      Compiles [depot, shop] [] (schedulers false) environment {} (documents (leaves false)) ∧
      Compiles [depot, shop] [] (schedulers true) environment {} (documents (leaves true)) ∧
      ¬LooksUp ((Resolver.ofResources [] (schedulers false) environment {}).chain shop) "own") ∧
    (documents (leaves false)).jobs.keeper.queries =
      [{ urgent with repos := ["acme/depot", "acme/shop"] }] ∧
    (documents (leaves true)).jobs.keeper.queries =
      [{ approved with repos := ["acme/depot"] },
        { urgent with repos := ["acme/depot", "acme/shop"] }] ∧
    SaysSame "acme" "shop" (documents (leaves false)) (documents (leaves true)) := by
  have hkeys : ([depot, shop].map SourceRepository.key).Nodup := by decide
  have hshop : shop ∈ [depot, shop] := List.mem_cons_of_mem _ (List.mem_singleton_self shop)
  have hchain : ¬LooksUp
      ((Resolver.ofResources [] (schedulers false) environment {}).chain shop) "own" := by
    -- the chain has one link, to the scheduler of the team
    have hteam : (Resolver.ofResources [] (schedulers false) environment {}).chain shop =
        [{ level := .team, source := "team", fragment := team }] := rfl
    rintro ⟨l, hl, -, hsource⟩
    rw [hteam] at hl
    rw [List.mem_singleton.1 hl] at hsource
    exact absurd hsource (by decide)
  exact ⟨⟨hkeys, hshop, compiles false, compiles true, hchain⟩, by decide, by decide,
    saysSame_of_edit (s := scheduler) (own true) hkeys (compiles false) (compiles true) hshop
      hchain⟩

end Edited

end SchedulerPolicy
