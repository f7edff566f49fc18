import SchedulerPolicy.Proofs.Documents.Mentions
import SchedulerPolicy.Proofs.Documents.Recovery

/-!
# Which repositories come back

The documents write the key of a repository in two ways: as a place of its own, be it a key of a map
or a node of a tree (`Documents.keyed`), and in a list of repositories that share an entry
(`Documents.listed`). `recover` searches the places only. From the documents of leaves it recovers a
repository for every key that has a place (`mem_recovered_iff_keyed`), and none for a key that is
merely listed: a repository whose only policy is how `approve` behaves is lost (`Quiet.lost`).

Leaves may have a key in common here. What matters is that every place goes back to some leaf
(`exists_leaf_of_mem_mentions`), for then its key splits and the documents are not refused.
-/

namespace SchedulerPolicy

variable {leaves : List Leaf} {d : Documents}

/-- The key of the repository that a place names. -/
def Mention.key : Mention → String
  | .entry _ key => key
  | .node _ org repo => RepoKey.join org repo

/-- The keys that have a place in the documents. -/
def Documents.keyed (d : Documents) : List String := d.mentions.map Mention.key

/-- The keys that the documents list under an entry. -/
def Documents.listed (d : Documents) : List String :=
  d.plugins.approve.flatMap (·.repos) ++ d.plugins.lgtm.flatMap (·.repos) ++
    d.plugins.triggers.flatMap (·.repos) ++ d.plugins.welcome.flatMap (·.repos) ++
    d.jobs.keeper.queries.flatMap (·.repos)

/-! ### What is recovered -/

theorem mem_keys_of_repositories {found : Keyed (String × String)} (h : d.repositories = .ok found)
    {key : String} :
    key ∈ found.keys ↔
      ∃ m ∈ d.mentions, ∃ p, m.repository? = .ok (some p) ∧ RepoKey.join p.1 p.2 = key := by
  unfold Documents.repositories at h
  obtain ⟨places, hplaces, hfound⟩ := bind_eq_ok_iff.1 h
  rw [← Except.ok.inj hfound, Keyed.mem_keys_ofList]
  constructor
  · rintro ⟨e, he, rfl⟩
    obtain ⟨p, hp, rfl⟩ := List.mem_map.1 he
    obtain ⟨found, hfound, rfl⟩ := List.mem_filterMap.1 hp
    obtain ⟨m, hm, hrepository⟩ := (mem_of_mapM_eq_ok hplaces).1 hfound
    exact ⟨m, hm, p, hrepository, rfl⟩
  · rintro ⟨m, hm, p, hrepository, rfl⟩
    have hp := (mem_of_mapM_eq_ok hplaces).2 ⟨m, hm, hrepository⟩
    exact ⟨_, List.mem_map.2 ⟨p, List.mem_filterMap.2 ⟨some p, hp, rfl⟩, rfl⟩, rfl⟩

/-- A mention that names a repository is split into it. -/
theorem Mention.split_of_repository? {m : Mention} {p : String × String}
    (h : m.repository? = .ok (some p)) : RepoKey.split? m.key = some p := by
  cases m with
  | entry place key =>
    unfold Mention.repository? at h
    dsimp only at h
    change RepoKey.split? key = some p
    cases hsplit : RepoKey.split? key with
    | some pair =>
      rw [hsplit] at h
      exact Except.ok.inj h
    | none =>
      -- an organisation alone names no repository
      rw [hsplit] at h
      dsimp only at h
      split at h
      · cases Except.ok.inj h
      · cases h
  | node place org repo =>
    unfold Mention.repository? at h
    dsimp only at h
    split at h
    · next hsplit => exact hsplit.trans (Except.ok.inj h)
    · cases h

/-- A repository that comes back is what some mention splits into. -/
theorem split_of_mem_recovered {r : Recovered} (h : recover d = .ok r) {s : SourceRepository}
    (hs : s ∈ r.repositories) :
    ∃ m ∈ d.mentions, RepoKey.split? m.key = some (s.spec.org, s.spec.repo) := by
  obtain ⟨found, hfound, -, hplaces⟩ := found_of_recover h
  have hplace : (s.spec.org, s.spec.repo) ∈ found.entries.map (·.2) := by
    rw [← hplaces]
    exact List.mem_map.2 ⟨s, hs, rfl⟩
  obtain ⟨e, he, heq⟩ := List.mem_map.1 hplace
  obtain ⟨-, m, hm, hrepository⟩ := mention_of_repositories hfound e he
  rw [← heq]
  exact ⟨m, hm, Mention.split_of_repository? hrepository⟩

/-- A repository that some mention names comes back. -/
theorem exists_recovered_of_mention {r : Recovered} (h : recover d = .ok r) {m : Mention}
    (hm : m ∈ d.mentions) {p : String × String} (hp : m.repository? = .ok (some p)) :
    ∃ s ∈ r.repositories, (s.spec.org, s.spec.repo) = p := by
  obtain ⟨found, hfound, -, hplaces⟩ := found_of_recover h
  have hkey : RepoKey.join p.1 p.2 ∈ r.repositories.map SourceRepository.key := by
    rw [keys_recovered hfound hplaces]
    exact (mem_keys_of_repositories hfound).2 ⟨m, hm, p, hp, rfl⟩
  obtain ⟨s, hs, hjoin⟩ := List.mem_map.1 hkey
  obtain ⟨m', -, hsplit⟩ := split_of_mem_recovered h hs
  -- one key has one split
  have hkeys : m'.key = m.key :=
    calc m'.key
        = SourceRepository.key s := (RepoKey.join_of_split hsplit).symm
      _ = RepoKey.join p.1 p.2 := hjoin
      _ = m.key := RepoKey.join_of_split (Mention.split_of_repository? hp)
  rw [hkeys, Mention.split_of_repository? hp] at hsplit
  exact ⟨s, hs, (Option.some.inj hsplit).symm⟩

/-! ### Places go back to leaves -/

section Tables

variable {β : Type}

/-- Whatever a leaf makes of the value under its key, the loop reaches the keys of leaves only. -/
theorem exists_leaf_of_mem_keys {γ : Type} {value : Leaf → Option γ} {f : γ → Option β → β}
    {k : String} (hk : k ∈ (leaves.foldl (alterAtKey value f) ∅).keys) :
    ∃ l ∈ leaves, l.key = k := by
  obtain ⟨v, hv⟩ := Keyed.mem_keys_iff.1 hk
  refine Classical.byContradiction fun hno => ?_
  have hstays : ∀ (m : Keyed β) l k, l.key ≠ k → (alterAtKey value f m l).get? k = m.get? k :=
    fun m l k hne => (get?_alterAtKey value f m l k).trans (if_neg hne)
  have hget : (leaves.foldl (alterAtKey value f) ∅).get? k = (∅ : Keyed β).get? k :=
    look_foldl_of_ne hstays (fun l hl hkey => hno ⟨l, hl, hkey⟩) ∅
  rw [hget, Keyed.get?_empty] at hv
  cases hv

theorem exists_leaf_of_getIn? {γ δ : Type} {repos : γ → Keyed β} {step : Keyed γ → Leaf → Keyed γ}
    {value : Leaf → Option δ} {f : δ → Option β → β}
    (hstep : ∀ m l q, (step m l).getIn? repos q =
      if l.place = q then putValue value f l (m.getIn? repos q) else m.getIn? repos q)
    {p : String × String} {v : β} (hv : (leaves.foldl step ∅).getIn? repos p = some v) :
    ∃ l ∈ leaves, l.place = p := by
  refine Classical.byContradiction fun hno => ?_
  have hget : (leaves.foldl step ∅).getIn? repos p = (∅ : Keyed γ).getIn? repos p :=
    look_foldl_of_ne (fun m l q hne => (hstep m l q).trans (if_neg hne))
      (fun l hl hplace => hno ⟨l, hl, hplace⟩) ∅
  rw [hget] at hv
  cases hv

theorem exists_leaf_of_mem_nodes {γ : Type} {repos : γ → Keyed β} {tree : Keyed γ}
    (htree : ∀ p v, tree.getIn? repos p = some v → ∃ l ∈ leaves, l.place = p) {s : KeyedSection}
    {m : Mention} (hm : m ∈ tree.entries.flatMap fun e => (repos e.2).keys.map (.node s e.1)) :
    ∃ l ∈ leaves, m = .node s l.org l.repo := by
  obtain ⟨p, hsome, rfl⟩ := mem_nodes_iff.1 hm
  obtain ⟨v, hv⟩ := Option.isSome_iff_exists.1 hsome
  obtain ⟨l, hl, rfl⟩ := htree p v hv
  exact ⟨l, hl, rfl⟩

end Tables

theorem exists_leaf_of_mem_mentionsIn {s : KeyedSection} {m : Mention}
    (hm : m ∈ (documents leaves).mentionsIn s) : ∃ l ∈ leaves, m = l.mention s := by
  have hentry : ∀ {β γ : Type} {value : Leaf → Option γ} {f : γ → Option β → β} {table : Keyed β},
      table = leaves.foldl (alterAtKey value f) ∅ → m ∈ table.keys.map (.entry s) →
        ∃ l ∈ leaves, m = .entry s l.key := by
    rintro β γ value f table rfl hm
    obtain ⟨k, hk, rfl⟩ := List.mem_map.1 hm
    obtain ⟨l, hl, rfl⟩ := exists_leaf_of_mem_keys hk
    exact ⟨l, hl, rfl⟩
  -- five sections are loops over keys, the last two are trees
  cases s with
  | presubmits => exact hentry (joinedByKey_eq _ leaves) hm
  | postsubmits => exact hentry (joinedByKey_eq _ leaves) hm
  | plugins => exact hentry (distinctByKey_eq _ leaves) hm
  | externalPlugins => exact hentry (distinctByKey_eq _ leaves) hm
  | mergeMethod => exact hentry (mergeMethods_eq leaves) hm
  | contextOptions =>
    exact exists_leaf_of_mem_nodes (fun p v => exists_leaf_of_getIn? getIn?_putContexts) hm
  | branchProtection =>
    refine exists_leaf_of_mem_nodes (fun p v hv => ?_) hm
    -- a node that is kept was a place of the table before
    change ((leaves.foldl putProtection ∅).filterMap Compile.orgNode?).getIn?
      OrgProtection.repos p = some v at hv
    rw [getIn?_filterMap_orgNode?] at hv
    obtain ⟨policy, hpolicy, -⟩ := Option.bind_eq_some_iff.1 hv
    exact exists_leaf_of_getIn? getIn?_putProtection hpolicy

theorem exists_leaf_of_mem_mentions {m : Mention} (hm : m ∈ (documents leaves).mentions) :
    ∃ l ∈ leaves, ∃ s, m = l.mention s := by
  obtain ⟨s, hs⟩ := Documents.mem_mentions.1 hm
  obtain ⟨l, hl, heq⟩ := exists_leaf_of_mem_mentionsIn hs
  exact ⟨l, hl, s, heq⟩

theorem Leaf.key_mention (l : Leaf) (s : KeyedSection) : (l.mention s).key = l.key := by
  cases s <;> rfl

/-! ### From leaves and back -/

theorem recover_documents
    (hnames : ∀ l ∈ leaves, Text.isBlank l.org = false ∧ Text.isBlank l.repo = false)
    (hslash : ∀ l ∈ leaves, '/' ∉ l.repo.toList) :
    ∃ r, recover (documents leaves) = .ok r ∧
      ∀ key, key ∈ r.repositories.map SourceRepository.key ↔ key ∈ (documents leaves).keyed := by
  -- every place names a repository, and the key of the repository is the one that is written there
  have hmention : ∀ m ∈ (documents leaves).mentions,
      ∃ p, m.repository? = .ok (some p) ∧ RepoKey.join p.1 p.2 = m.key := by
    intro m hm
    obtain ⟨l, hl, s, rfl⟩ := exists_leaf_of_mem_mentions hm
    obtain ⟨horg, hrepo⟩ := hnames l hl
    exact ⟨l.place, l.repository?_mention horg hrepo (hslash l hl) s, (l.key_mention s).symm⟩
  have hfound : ∃ found, (documents leaves).repositories = .ok found := by
    refine exists_repositories_iff.2 fun m hm => ?_
    obtain ⟨p, hp, -⟩ := hmention m hm
    exact ⟨some p, hp⟩
  obtain ⟨found, hfound⟩ := hfound
  obtain ⟨r, hr, -, hplaces⟩ := recover_eq_ok hfound
  refine ⟨r, hr, fun key => ?_⟩
  rw [keys_recovered hfound hplaces, mem_keys_of_repositories hfound]
  unfold Documents.keyed
  rw [List.mem_map]
  refine exists_congr fun m => and_congr_right fun hm => ?_
  obtain ⟨p, hp, hkey⟩ := hmention m hm
  constructor
  · rintro ⟨q, hq, rfl⟩
    obtain rfl : p = q := Option.some.inj (Except.ok.inj (hp.symm.trans hq))
    exact hkey.symm
  · rintro rfl
    exact ⟨p, hp, hkey⟩

/-- **The repositories that come back from compiled documents** are those that have a place there.
Whether a key is listed under some entry makes no difference. -/
theorem mem_recovered_iff_keyed (hd : compile leaves = .ok d)
    (hslash : ∀ l ∈ leaves, '/' ∉ l.repo.toList) :
    ∃ r, recover d = .ok r ∧
      ∀ key, key ∈ r.repositories.map SourceRepository.key ↔ key ∈ d.keyed := by
  obtain ⟨hnames, rfl⟩ := compile_eq_ok_iff.1 hd
  exact recover_documents hnames hslash

namespace Quiet

/-- A repository with a job, and one of which nothing is said but how `approve` behaves. -/
def team : List Leaf := [
  { org := "acme"
    repo := "docs"
    fragment := { approve := some { issueRequired := some true } } },
  { org := "acme"
    repo := "shop"
    fragment := { presubmits := some { items := [{ name := "lint" }] } } }]

theorem mem_recovered_iff_keyed_of_team :
    (∀ l ∈ team, '/' ∉ l.repo.toList) ∧
      ∃ d, compile team = .ok d ∧ ∃ r, recover d = .ok r ∧
        ∀ key, key ∈ r.repositories.map SourceRepository.key ↔ key ∈ d.keyed := by
  have hslash : ∀ l ∈ team, '/' ∉ l.repo.toList := by decide
  have hcompile : compile team = .ok (documents team) := compile_eq_ok (by decide)
  exact ⟨hslash, _, hcompile, mem_recovered_iff_keyed hcompile hslash⟩

/-- **A repository that is only listed is lost.** -/
theorem lost : ∃ d r, compile team = .ok d ∧ (∀ l ∈ team, '/' ∉ l.repo.toList) ∧
    recover d = .ok r ∧ "acme/docs" ∈ d.listed ∧
    "acme/docs" ∉ r.repositories.map SourceRepository.key := by
  have hnames : ∀ l ∈ team, Text.isBlank l.org = false ∧ Text.isBlank l.repo = false := by decide
  have hslash : ∀ l ∈ team, '/' ∉ l.repo.toList := by decide
  obtain ⟨r, hr, hkeys⟩ := recover_documents hnames hslash
  have hlisted : "acme/docs" ∈ (documents team).listed := by decide
  have hkeyed : "acme/docs" ∉ (documents team).keyed := by decide
  refine ⟨documents team, r, compile_eq_ok hnames, hslash, hr, hlisted, ?_⟩
  rw [hkeys]
  exact hkeyed

end Quiet

end SchedulerPolicy
