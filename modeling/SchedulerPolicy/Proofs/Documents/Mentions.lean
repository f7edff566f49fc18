import SchedulerPolicy.Proofs.Documents.Sections
import SchedulerPolicy.Proofs.Resolution.Generate

/-!
# What compiled documents mention

The documents of a list of leaves name a repository by a key in seven sections, and a leaf appears
in those of them in which it has something to say (`Leaf.appears`). The repositories that can be
recovered from the documents are therefore the leaves that appear somewhere
(`repositories_documents`); a leaf that says nothing but how `approve` behaves, say, leaves no key
behind and is lost.
-/

namespace SchedulerPolicy

variable {leaves : List Leaf}

/-- All sections whose keys name repositories, in the order in which they are searched. -/
def KeyedSection.all : List KeyedSection :=
  [.presubmits, .postsubmits, .plugins, .externalPlugins, .mergeMethod, .contextOptions,
    .branchProtection]

theorem KeyedSection.mem_all (s : KeyedSection) : s ∈ all := by
  cases s <;> decide

namespace Leaf

/-- Whether a leaf has something to say in a section that names repositories by key. -/
def appears (l : Leaf) : KeyedSection → Bool
  | .presubmits => !((l.fragment.presubmits.map (·.items)).getD []).isEmpty
  | .postsubmits => !((l.fragment.postsubmits.map (·.items)).getD []).isEmpty
  | .plugins => !l.fragment.pluginNames.isEmpty
  | .externalPlugins => !(itemsOf l.fragment.externalPlugins).isEmpty
  | .mergeMethod => (l.fragment.merger.bind (·.mergeMethod)).isSome
  | .contextOptions => (l.fragment.merger.bind (·.contextPolicy)).isSome
  | .branchProtection => l.node?.isSome

/-- Whether the documents name the repository of a leaf by key. -/
def anchored (l : Leaf) : Bool := KeyedSection.all.any l.appears

theorem anchored_iff {l : Leaf} : l.anchored = true ↔ ∃ s, l.appears s = true := by
  unfold anchored
  rw [List.any_eq_true]
  constructor
  · rintro ⟨s, -, hs⟩
    exact ⟨s, hs⟩
  · rintro ⟨s, hs⟩
    exact ⟨s, s.mem_all, hs⟩

/-- How a leaf is named in a section. -/
def mention (l : Leaf) : KeyedSection → Mention
  | .contextOptions => .node .contextOptions l.org l.repo
  | .branchProtection => .node .branchProtection l.org l.repo
  | s => .entry s l.key

end Leaf

/-- The places in one section that name repositories. -/
def Documents.mentionsIn (d : Documents) : KeyedSection → List Mention
  | .presubmits => d.jobs.presubmits.keys.map (.entry .presubmits)
  | .postsubmits => d.jobs.postsubmits.keys.map (.entry .postsubmits)
  | .plugins => d.plugins.plugins.keys.map (.entry .plugins)
  | .externalPlugins => d.plugins.externalPlugins.keys.map (.entry .externalPlugins)
  | .mergeMethod => d.jobs.keeper.mergeMethod.keys.map (.entry .mergeMethod)
  | .contextOptions => d.jobs.keeper.contextOptions.orgs.entries.flatMap fun e =>
      e.2.repos.keys.map (.node .contextOptions e.1)
  | .branchProtection => d.jobs.branchProtection.orgs.entries.flatMap fun e =>
      e.2.repos.keys.map (.node .branchProtection e.1)

/-- The sections are searched one after the other. -/
theorem Documents.mentions_eq (d : Documents) :
    d.mentions = KeyedSection.all.flatMap d.mentionsIn := by
  unfold Documents.mentions KeyedSection.all
  simp only [List.flatMap_cons, List.flatMap_nil, List.append_nil, List.append_assoc]
  rfl

theorem Documents.mem_mentions {d : Documents} {m : Mention} :
    m ∈ d.mentions ↔ ∃ s, m ∈ d.mentionsIn s := by
  rw [Documents.mentions_eq, List.mem_flatMap]
  constructor
  · rintro ⟨s, -, hs⟩
    exact ⟨s, hs⟩
  · rintro ⟨s, hs⟩
    exact ⟨s, s.mem_all, hs⟩

/-! ### One section -/

section Tables

variable {β : Type} (h : (leaves.map Leaf.key).Nodup)

include h

/-- The keys of a map are those of the leaves that have an entry in it. -/
theorem mem_map_entry {entry : Leaf → Option β} {table : Keyed β}
    (hget : ∀ k, table.get? k = (itemAt Leaf.key leaves k).bind entry) {s : KeyedSection}
    {m : Mention} :
    m ∈ table.keys.map (.entry s) ↔
      ∃ l ∈ leaves, (entry l).isSome = true ∧ m = .entry s l.key := by
  -- something is found under a key when the leaf of the key has an entry
  have hkeys : ∀ k, k ∈ table.keys ↔ ∃ l ∈ leaves, l.key = k ∧ (entry l).isSome = true := by
    intro k
    rw [Keyed.mem_keys_iff, ← Option.isSome_iff_exists, hget, isSome_bind_itemAt h]
  rw [List.mem_map]
  constructor
  · rintro ⟨k, hk, rfl⟩
    obtain ⟨l, hl, rfl, hentry⟩ := (hkeys k).1 hk
    exact ⟨l, hl, hentry, rfl⟩
  · rintro ⟨l, hl, hentry, rfl⟩
    exact ⟨l.key, (hkeys l.key).2 ⟨l, hl, rfl, hentry⟩, rfl⟩

omit h in
/-- The nodes of a tree are the places at which it holds something. -/
theorem mem_nodes_iff {γ : Type} {repos : γ → Keyed β} {tree : Keyed γ} {s : KeyedSection}
    {m : Mention} :
    (m ∈ tree.entries.flatMap fun e => (repos e.2).keys.map (.node s e.1)) ↔
      ∃ p, (tree.getIn? repos p).isSome = true ∧ m = .node s p.1 p.2 := by
  rw [List.mem_flatMap]
  constructor
  · rintro ⟨⟨org, node⟩, hnode, hm⟩
    obtain ⟨repo, hrepo, rfl⟩ := List.mem_map.1 hm
    obtain ⟨v, hv⟩ := Keyed.mem_keys_iff.1 hrepo
    refine ⟨(org, repo), ?_, rfl⟩
    -- the node is found under its organisation, and in it the repository
    unfold Keyed.getIn?
    rw [Keyed.get?_eq_some_iff.2 hnode, Option.bind_some, hv]
    rfl
  · rintro ⟨p, hsome, rfl⟩
    obtain ⟨v, hv⟩ := Option.isSome_iff_exists.1 hsome
    obtain ⟨node, hnode, hrepo⟩ := Option.bind_eq_some_iff.1 hv
    exact ⟨(p.1, node), Keyed.get?_eq_some_iff.1 hnode,
      List.mem_map.2 ⟨p.2, Keyed.mem_keys_iff.2 ⟨v, hrepo⟩, rfl⟩⟩

/-- The nodes of a tree are those of the leaves that have an entry in it. -/
theorem mem_flatMap_node {γ : Type} {repos : γ → Keyed β} {entry : Leaf → Option β}
    {tree : Keyed γ}
    (hget : ∀ p, tree.getIn? repos p = (itemAt Leaf.place leaves p).bind entry) {s : KeyedSection}
    {m : Mention} :
    (m ∈ tree.entries.flatMap fun e => (repos e.2).keys.map (.node s e.1)) ↔
      ∃ l ∈ leaves, (entry l).isSome = true ∧ m = .node s l.org l.repo := by
  have hplaces : ∀ p, (tree.getIn? repos p).isSome = true ↔
      ∃ l ∈ leaves, l.place = p ∧ (entry l).isSome = true := by
    intro p
    rw [hget, isSome_bind_itemAt (nodup_place h)]
  rw [mem_nodes_iff]
  constructor
  · rintro ⟨p, hsome, rfl⟩
    obtain ⟨l, hl, rfl, hentry⟩ := (hplaces p).1 hsome
    exact ⟨l, hl, hentry, rfl⟩
  · rintro ⟨l, hl, hentry, rfl⟩
    exact ⟨l.place, (hplaces l.place).2 ⟨l, hl, rfl, hentry⟩, rfl⟩

end Tables

theorem isSome_nonEmpty {β : Type} (xs : List β) : (nonEmpty xs).isSome = !xs.isEmpty := by
  cases xs <;> rfl

/-- **What a section of the documents mentions.** -/
theorem mem_mentionsIn (h : (leaves.map Leaf.key).Nodup) (s : KeyedSection) {m : Mention} :
    m ∈ (documents leaves).mentionsIn s ↔
      ∃ l ∈ leaves, l.appears s = true ∧ m = l.mention s := by
  -- the last two sections are trees of organisations, the others tables of keys
  cases s with
  | presubmits =>
    refine (mem_map_entry h (get?_joinedByKey h _)).trans ?_
    simp only [isSome_nonEmpty]
    rfl
  | postsubmits =>
    refine (mem_map_entry h (get?_joinedByKey h _)).trans ?_
    simp only [isSome_nonEmpty]
    rfl
  | plugins =>
    refine (mem_map_entry h (get?_distinctByKey h _)).trans ?_
    simp only [Option.isSome_map, isSome_nonEmpty]
    rfl
  | externalPlugins =>
    refine (mem_map_entry h (get?_distinctByKey h _)).trans ?_
    simp only [Option.isSome_map, isSome_nonEmpty]
    rfl
  | mergeMethod => exact mem_map_entry h (get?_mergeMethods h)
  | contextOptions =>
    refine (mem_flatMap_node h fun p => repo?_contextTree h p.1 p.2).trans ?_
    simp only [Option.isSome_map]
    rfl
  | branchProtection => exact mem_flatMap_node h (getIn?_protection h)

/-! ### The repositories -/

theorem ne_empty_of_not_blank {t : String} (h : Text.isBlank t = false) : t ≠ "" := by
  rintro rfl
  cases h

/-- A leaf whose repository holds no slash is named by its mentions. -/
theorem Leaf.repository?_mention {l : Leaf} (horg : Text.isBlank l.org = false)
    (hrepo : Text.isBlank l.repo = false) (hslash : '/' ∉ l.repo.toList) (s : KeyedSection) :
    (l.mention s).repository? = .ok (some l.place) := by
  have hsplit : RepoKey.split? l.key = some l.place :=
    RepoKey.split_join (ne_empty_of_not_blank horg) (ne_empty_of_not_blank hrepo) hslash
  have hentry : ∀ s, (Mention.entry s l.key).repository? = .ok (some l.place) := by
    intro s
    unfold Mention.repository?
    dsimp only
    rw [hsplit]
  have hnode : ∀ s, (Mention.node s l.org l.repo).repository? = .ok (some l.place) := by
    intro s
    unfold Mention.repository?
    exact if_pos hsplit
  cases s with
  | contextOptions => exact hnode _
  | branchProtection => exact hnode _
  | _ => exact hentry _

theorem eq_of_key_eq (h : (leaves.map Leaf.key).Nodup) {l m : Leaf} (hl : l ∈ leaves)
    (hm : m ∈ leaves) (hkey : l.key = m.key) : l = m := by
  -- either leaf is the one that is found under the common key
  have hitem := itemAt_key h hl
  rw [hkey, itemAt_key h hm] at hitem
  exact (Option.some.inj hitem).symm

/-- Every mention names a leaf, and every leaf that appears somewhere is mentioned. -/
theorem mapM_repository?_mentions (h : (leaves.map Leaf.key).Nodup)
    (hnames : ∀ l ∈ leaves, Text.isBlank l.org = false ∧ Text.isBlank l.repo = false ∧
      '/' ∉ l.repo.toList) :
    ∃ found, (documents leaves).mentions.mapM Mention.repository? = .ok found ∧
      ∀ p, some p ∈ found ↔ ∃ l ∈ leaves, l.anchored = true ∧ l.place = p := by
  -- the place that a mention names, known to be one for the mentions of leaves
  let place (m : Mention) : Option (String × String) := m.repository?.toOption.join
  have hmention : ∀ l ∈ leaves, ∀ s, (l.mention s).repository? = .ok (some l.place) := by
    intro l hl
    obtain ⟨horg, hrepo, hslash⟩ := hnames l hl
    exact l.repository?_mention horg hrepo hslash
  have hplace : ∀ l ∈ leaves, ∀ s, place (l.mention s) = some l.place := by
    intro l hl s
    simp only [place, hmention l hl s]
    rfl
  refine ⟨(documents leaves).mentions.map place, mapM_eq_ok_map fun m hm => ?_, fun p => ?_⟩
  · -- no mention stands in the way, for each is of a leaf
    obtain ⟨s, hs⟩ := Documents.mem_mentions.1 hm
    obtain ⟨l, hl, -, rfl⟩ := (mem_mentionsIn h s).1 hs
    rw [hmention l hl, hplace l hl]
  · rw [List.mem_map]
    constructor
    · rintro ⟨m, hm, hp⟩
      obtain ⟨s, hs⟩ := Documents.mem_mentions.1 hm
      obtain ⟨l, hl, hsays, rfl⟩ := (mem_mentionsIn h s).1 hs
      rw [hplace l hl] at hp
      exact ⟨l, hl, Leaf.anchored_iff.2 ⟨s, hsays⟩, Option.some.inj hp⟩
    · rintro ⟨l, hl, hanchored, rfl⟩
      obtain ⟨s, hsays⟩ := Leaf.anchored_iff.1 hanchored
      have hm : l.mention s ∈ (documents leaves).mentions :=
        Documents.mem_mentions.2 ⟨s, (mem_mentionsIn h s).2 ⟨l, hl, hsays, rfl⟩⟩
      exact ⟨l.mention s, hm, hplace l hl s⟩

/-- Under their keys the places of leaves stand in the order of the leaves, each of them once. -/
theorem entries_ofList_places (h : leaves.Pairwise fun l m => l.key < m.key)
    {places : List (String × String)}
    (hplaces : ∀ p, p ∈ places ↔ ∃ l ∈ leaves, l.anchored = true ∧ l.place = p) :
    (Keyed.ofList (places.map fun p => (RepoKey.join p.1 p.2, p))).entries =
      (leaves.filter Leaf.anchored).map fun l => (l.key, l.place) := by
  -- the entries are the keys and places of the leaves that are named
  have hentries : ∀ e, (e ∈ places.map fun p => (RepoKey.join p.1 p.2, p)) ↔
      ∃ l ∈ leaves, l.anchored = true ∧ (l.key, l.place) = e := by
    intro e
    rw [List.mem_map]
    constructor
    · rintro ⟨p, hp, rfl⟩
      obtain ⟨l, hl, hanchored, rfl⟩ := (hplaces p).1 hp
      exact ⟨l, hl, hanchored, rfl⟩
    · rintro ⟨l, hl, hanchored, rfl⟩
      exact ⟨l.place, (hplaces l.place).2 ⟨l, hl, hanchored, rfl⟩, rfl⟩
  -- a key stands for one leaf only
  have hfun : ∀ e ∈ places.map fun p => (RepoKey.join p.1 p.2, p),
      ∀ e' ∈ places.map fun p => (RepoKey.join p.1 p.2, p), e.1 = e'.1 → e = e' := by
    intro e he e' he' hkey
    obtain ⟨l, hl, -, rfl⟩ := (hentries e).1 he
    obtain ⟨m, hm, -, rfl⟩ := (hentries e').1 he'
    rw [eq_of_key_eq (Keyed.nodup_of_ascending h) hl hm hkey]
  -- the leaves are in the order of keys, so they make up a map themselves, and look-ups decide
  have hascending : ((leaves.filter Leaf.anchored).map fun l => (l.key, l.place)).Pairwise
      fun a b => a.1 < b.1 := List.pairwise_map.2 (h.sublist List.filter_sublist)
  suffices hmap : Keyed.ofList _ = ⟨_, hascending⟩ from congrArg Keyed.entries hmap
  refine Keyed.ext_get? fun key => Option.ext fun p => ?_
  rw [Keyed.get?_ofList_eq_some_iff hfun, hentries, Keyed.get?_eq_some_iff, List.mem_map]
  simp only [List.mem_filter, and_assoc]

/-- **The repositories that compiled documents name**: those of the leaves that appear somewhere. -/
theorem repositories_documents (h : leaves.Pairwise fun l m => l.key < m.key)
    (hnames : ∀ l ∈ leaves, Text.isBlank l.org = false ∧ Text.isBlank l.repo = false ∧
      '/' ∉ l.repo.toList) :
    ∃ found, (documents leaves).repositories = .ok found ∧
      found.entries = (leaves.filter Leaf.anchored).map fun l => (l.key, l.place) := by
  obtain ⟨found, hfound, hplaces⟩ := mapM_repository?_mentions (Keyed.nodup_of_ascending h) hnames
  have hmem : ∀ p, p ∈ found.filterMap id ↔ ∃ l ∈ leaves, l.anchored = true ∧ l.place = p := by
    intro p
    rw [List.mem_filterMap, ← hplaces p]
    exact ⟨fun ⟨_, hx, hp⟩ => hp ▸ hx, fun hp => ⟨some p, hp, rfl⟩⟩
  exact ⟨_, bind_eq_of_ok hfound rfl, entries_ofList_places h hmem⟩

end SchedulerPolicy
