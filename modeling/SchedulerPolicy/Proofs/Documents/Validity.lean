import SchedulerPolicy.Proofs.Documents.Accepted

/-!
# Which documents are accepted

Documents are accepted when every key that is to name a repository does, and refused for the first
one that does not. Both are said here of the documents themselves: of the keys of five maps and the
nodes of two trees (`Documents.Names`), with no list of mentions that is gone through.

* A key has to be in order by itself (`Mention.WellFormed`), and only the sections of plugins and of
  merge methods let an organisation stand alone.
* The key that is blamed is the least of those that are not in order. `Mention.Before` is the order:
  section by section, in a section by key, in a tree by organisation and then by repository. That
  mentions are searched in just this order (`pairwise_mentions`) is because maps are kept sorted;
  from there on it is a matter of the first step of a traversal that fails.
-/

namespace SchedulerPolicy

variable {d : Documents}

namespace Mention

/-- The section that a mention stands in. -/
def place : Mention → KeyedSection
  | .entry place _ => place
  | .node place _ _ => place

/-- Where in its section a mention stands: under its key, or in a tree under its organisation and
there under its repository. -/
def position : Mention → String × String
  | .entry _ key => (key, "")
  | .node _ org repo => (org, repo)

/-- Whether a mention comes before another, by section and position. -/
def Before (m n : Mention) : Prop :=
  KeyedSection.all.idxOf m.place < KeyedSection.all.idxOf n.place ∨
    m.place = n.place ∧
      (m.position.1 < n.position.1 ∨
        m.position.1 = n.position.1 ∧ m.position.2 < n.position.2)

/-- A mention that names a repository, or where that is allowed an organisation. -/
def WellFormed : Mention → Prop
  | .entry place key =>
    (∃ org repo, key = RepoKey.join org repo ∧ org ≠ "" ∧ repo ≠ "" ∧ '/' ∉ repo.toList) ∨
      allowsOrg place = true ∧ '/' ∉ key.toList ∧ Text.isBlank key = false
  | .node _ org repo => org ≠ "" ∧ repo ≠ "" ∧ '/' ∉ repo.toList

/-- **A mention is read when it is well formed.** -/
theorem exists_repository?_iff {m : Mention} : (∃ p, m.repository? = .ok p) ↔ m.WellFormed := by
  cases m with
  | entry place key =>
    have hsplit : (∃ pair, RepoKey.split? key = some pair) ↔
        ∃ org repo, key = RepoKey.join org repo ∧ org ≠ "" ∧ repo ≠ "" ∧ '/' ∉ repo.toList := by
      simp only [Prod.exists, RepoKey.split_eq_some_iff]
    have horg : isOrg key = true ↔ '/' ∉ key.toList ∧ Text.isBlank key = false := by
      unfold isOrg
      rw [Bool.and_eq_true, Bool.not_eq_true', Bool.not_eq_true', ← Bool.not_eq_true,
        List.contains_iff_mem]
    unfold WellFormed repository?
    dsimp only
    rw [← hsplit, ← horg]
    -- a key that cannot be split may still be an organisation, where one is allowed
    cases RepoKey.split? key with
    | some pair => exact iff_of_true ⟨_, rfl⟩ (Or.inl ⟨pair, rfl⟩)
    | none =>
      dsimp only
      split
      · next h => exact iff_of_true ⟨_, rfl⟩ (Or.inr (Bool.and_eq_true _ _ ▸ h))
      · next h =>
        refine iff_of_false nofun ?_
        rintro (⟨_, hnone⟩ | hboth)
        · cases hnone
        · exact h (by rw [hboth.1, hboth.2]; rfl)
  | node place org repo =>
    -- a node is split as it was joined, unless a side is empty or the repository has a slash
    rw [exists_repository?_node_iff, RepoKey.split_eq_some_iff, eq_self, true_and]
    rfl

/-- What is said of a mention that is refused. -/
theorem repository?_eq_error_iff {m : Mention} {e : MalformedKey} :
    m.repository? = .error e ↔ ¬m.WellFormed ∧ e = { place := m.place, key := m.key } := by
  rw [← exists_repository?_iff]
  cases h : m.repository? with
  | ok p => exact iff_of_false nofun fun hno => hno.1 ⟨p, rfl⟩
  | error e' =>
    -- a mention that is refused is blamed itself
    have he' : e' = { place := m.place, key := m.key } := by
      cases m with
      | entry place key =>
        unfold repository? at h
        dsimp only at h
        split at h
        · cases h
        · split at h
          · cases h
          · exact (Except.error.inj h).symm
      | node place org repo =>
        unfold repository? at h
        dsimp only at h
        split at h
        · cases h
        · exact (Except.error.inj h).symm
    rw [Except.error.injEq, he', eq_comm]
    exact ⟨fun h => ⟨nofun, h⟩, fun h => h.2⟩

end Mention

/-! ### What documents mention -/

/-- The documents have a key or a node that is to name a repository. -/
def Documents.Names (d : Documents) : Mention → Prop
  | .entry .presubmits key => key ∈ d.jobs.presubmits.keys
  | .entry .postsubmits key => key ∈ d.jobs.postsubmits.keys
  | .entry .plugins key => key ∈ d.plugins.plugins.keys
  | .entry .externalPlugins key => key ∈ d.plugins.externalPlugins.keys
  | .entry .mergeMethod key => key ∈ d.jobs.keeper.mergeMethod.keys
  | .node .contextOptions org repo =>
    (d.jobs.keeper.contextOptions.repo? org repo).isSome = true
  | .node .branchProtection org repo => (d.jobs.branchProtection.repo? org repo).isSome = true
  | _ => False

/-- The keys of a map are what the documents name in a section that is a map. -/
theorem mem_map_entry_iff {keys : List String} {s : KeyedSection}
    (hkeys : ∀ key, d.Names (.entry s key) ↔ key ∈ keys)
    (hnodes : ∀ org repo, ¬d.Names (.node s org repo)) {m : Mention} :
    m ∈ keys.map (.entry s) ↔ d.Names m ∧ m.place = s := by
  rw [List.mem_map]
  constructor
  · rintro ⟨key, hkey, rfl⟩
    exact ⟨(hkeys key).2 hkey, rfl⟩
  · rintro ⟨hnames, rfl⟩
    cases m with
    | entry place key => exact ⟨key, (hkeys key).1 hnames, rfl⟩
    | node place org repo => exact absurd hnames (hnodes org repo)

/-- The nodes of a tree are what the documents name in a section that is a tree. -/
theorem mem_flatMap_node_iff {γ β : Type} {repos : γ → Keyed β} {tree : Keyed γ} {s : KeyedSection}
    (hkeys : ∀ key, ¬d.Names (.entry s key))
    (hnodes : ∀ org repo,
      d.Names (.node s org repo) ↔ (tree.getIn? repos (org, repo)).isSome = true)
    {m : Mention} :
    (m ∈ tree.entries.flatMap fun e => (repos e.2).keys.map (.node s e.1)) ↔
      d.Names m ∧ m.place = s := by
  rw [mem_nodes_iff]
  constructor
  · rintro ⟨⟨org, repo⟩, hsome, rfl⟩
    exact ⟨(hnodes org repo).2 hsome, rfl⟩
  · rintro ⟨hnames, rfl⟩
    cases m with
    | entry place key => exact absurd hnames (hkeys key)
    | node place org repo => exact ⟨(org, repo), (hnodes org repo).1 hnames, rfl⟩

/-- What the documents name in a section is what is mentioned there. -/
theorem mem_mentionsIn_iff {s : KeyedSection} {m : Mention} :
    m ∈ d.mentionsIn s ↔ d.Names m ∧ m.place = s := by
  cases s with
  | contextOptions => exact mem_flatMap_node_iff (fun _ => id) fun _ _ => Iff.rfl
  | branchProtection => exact mem_flatMap_node_iff (fun _ => id) fun _ _ => Iff.rfl
  | _ => exact mem_map_entry_iff (fun _ => Iff.rfl) fun _ _ => id

theorem mem_mentions_iff {m : Mention} : m ∈ d.mentions ↔ d.Names m := by
  rw [Documents.mem_mentions]
  constructor
  · rintro ⟨s, hs⟩
    exact (mem_mentionsIn_iff.1 hs).1
  · intro h
    exact ⟨m.place, mem_mentionsIn_iff.2 ⟨h, rfl⟩⟩

/-! ### The order of mentions -/

theorem Mention.not_before_self (m : Mention) : ¬m.Before m := by
  rintro (hlt | ⟨-, hlt | ⟨-, hlt⟩⟩)
  · exact Nat.lt_irrefl _ hlt
  · exact String.lt_irrefl _ hlt
  · exact String.lt_irrefl _ hlt

/-- Of two mentions one only comes before the other. -/
theorem Mention.Before.asymm {m n : Mention} (h : m.Before n) : ¬n.Before m := by
  rintro (hlt' | ⟨hplace', hlt'⟩)
  · rcases h with hlt | ⟨hplace, -⟩
    · exact Nat.lt_asymm hlt hlt'
    · exact Nat.lt_irrefl _ (hplace ▸ hlt')
  · rcases h with hlt | ⟨-, hlt⟩
    · exact Nat.lt_irrefl _ (hplace' ▸ hlt)
    · -- in one section the positions decide
      rcases hlt with hlt | ⟨heq, hlt⟩ <;> rcases hlt' with hlt' | ⟨heq', hlt'⟩
      · exact String.lt_irrefl _ (String.lt_trans hlt hlt')
      · exact String.lt_irrefl _ (heq' ▸ hlt)
      · exact String.lt_irrefl _ (heq ▸ hlt')
      · exact String.lt_irrefl _ (String.lt_trans hlt hlt')

/-- The keys of a map are mentioned in their order. -/
theorem pairwise_map_entry {α : Type} (m : Keyed α) (s : KeyedSection) :
    (m.keys.map (Mention.entry s)).Pairwise Mention.Before := by
  refine List.pairwise_map.2 (List.pairwise_map.2 (m.ascending.imp fun {a b} hlt => ?_))
  exact Or.inr ⟨rfl, Or.inl hlt⟩

/-- The nodes of a tree are mentioned organisation by organisation. -/
theorem pairwise_flatMap_node {γ β : Type} (tree : Keyed γ) (repos : γ → Keyed β)
    (s : KeyedSection) :
    (tree.entries.flatMap fun e => (repos e.2).keys.map (Mention.node s e.1)).Pairwise
      Mention.Before := by
  refine List.pairwise_flatMap.2 ⟨fun e _ => ?_, tree.ascending.imp fun {a b} hlt m hm n hn => ?_⟩
  · -- in one organisation the repositories ascend
    refine List.pairwise_map.2 (List.pairwise_map.2 ((repos e.2).ascending.imp fun {a b} hlt => ?_))
    exact Or.inr ⟨rfl, Or.inr ⟨rfl, hlt⟩⟩
  · -- and the organisations do, whatever the repositories
    obtain ⟨repo, -, rfl⟩ := List.mem_map.1 hm
    obtain ⟨repo', -, rfl⟩ := List.mem_map.1 hn
    exact Or.inr ⟨rfl, Or.inl hlt⟩

/-- **Mentions are searched in their order**, and no mention twice. -/
theorem pairwise_mentions (d : Documents) : d.mentions.Pairwise Mention.Before := by
  rw [Documents.mentions_eq, List.pairwise_flatMap]
  constructor
  · intro s _
    cases s with
    | contextOptions => exact pairwise_flatMap_node ..
    | branchProtection => exact pairwise_flatMap_node ..
    | _ => exact pairwise_map_entry ..
  · -- the sections themselves
    have hsections : KeyedSection.all.Pairwise fun s t =>
        KeyedSection.all.idxOf s < KeyedSection.all.idxOf t := by decide
    refine hsections.imp fun {s t} hlt m hm n hn => Or.inl ?_
    rwa [(mem_mentionsIn_iff.1 hm).2, (mem_mentionsIn_iff.1 hn).2]

/-! ### Refusal -/

/-- The documents are refused when a mention cannot be read. -/
theorem recover_eq_error_iff_mapM {e : MalformedKey} :
    recover d = .error e ↔ d.mentions.mapM Mention.repository? = .error e := by
  unfold recover Documents.repositories
  cases d.mentions.mapM Mention.repository? with
  | error e' =>
    change Except.error e' = .error e ↔ Except.error e' = .error e
    rw [Except.error.injEq, Except.error.injEq]
  | ok found => exact ⟨nofun, nofun⟩

/-- **When documents are accepted.** -/
theorem exists_recover_iff_wellFormed :
    (∃ r, recover d = .ok r) ↔ ∀ m, d.Names m → m.WellFormed := by
  rw [exists_recover_iff]
  exact forall_congr' fun m =>
    imp_congr mem_mentions_iff Mention.exists_repository?_iff

/-- **Which key is blamed**: the first that is not in order. -/
theorem recover_eq_error_iff {e : MalformedKey} :
    recover d = .error e ↔ ∃ m, d.Names m ∧ ¬m.WellFormed ∧
      (∀ n, d.Names n → n.Before m → n.WellFormed) ∧ e = { place := m.place, key := m.key } := by
  rw [recover_eq_error_iff_mapM, mapM_eq_error_iff]
  simp only [Mention.repository?_eq_error_iff, Mention.exists_repository?_iff]
  constructor
  · rintro ⟨before, m, after, hmentions, hbefore, hm, rfl⟩
    have hsorted := pairwise_mentions d
    rw [hmentions, List.pairwise_append, List.pairwise_cons] at hsorted
    obtain ⟨-, ⟨hafter, -⟩, -⟩ := hsorted
    refine ⟨m, mem_mentions_iff.1 (hmentions ▸ by simp), hm, fun n hn hlt => ?_, rfl⟩
    -- what comes before the mention is searched before it
    have hmem : n ∈ before ++ m :: after := hmentions ▸ mem_mentions_iff.2 hn
    rcases List.mem_append.1 hmem with hmem | hmem
    · exact hbefore n hmem
    · rcases List.mem_cons.1 hmem with rfl | hmem
      · exact absurd hlt n.not_before_self
      · exact absurd hlt (hafter n hmem).asymm
  · rintro ⟨m, hnames, hm, hbefore, rfl⟩
    obtain ⟨before, after, hmentions⟩ := List.append_of_mem (mem_mentions_iff.2 hnames)
    -- and what is searched before it comes before it
    have hsorted := pairwise_mentions d
    rw [hmentions, List.pairwise_append] at hsorted
    refine ⟨before, m, after, hmentions, fun n hn => ?_, hm, rfl⟩
    exact hbefore n (mem_mentions_iff.1 (hmentions ▸ List.mem_append_left _ hn))
      (hsorted.2.2 n hn m List.mem_cons_self)

end SchedulerPolicy
