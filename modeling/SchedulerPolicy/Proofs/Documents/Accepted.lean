import SchedulerPolicy.Proofs.Documents.Enumerated

/-!
# Which compiled documents are accepted

Names are checked twice, and not in the same way. `compile` asks that the organisation and the
repository of a leaf are not blank, and writes the two as one key. `recover` splits a key at its
last slash and wants something on both sides; where the two still stand apart, as they do in a tree,
it wants the key to split into just them.

For a repository without a slash both checks come to the same, so compiled documents are accepted
and every repository that comes back is that of a leaf. A repository with a slash passes the first
check only. What becomes of it depends on the sections in which it is named (`Leaf.Legible`): a tree
that names it is refused, and a key of a map is split at the wrong slash or, when there is nothing
behind the last one, refused as well. `recover_compiled` says exactly when documents are accepted
and which repositories come back.
-/

namespace SchedulerPolicy

variable {leaves : List Leaf} {d : Documents}

/-- Whether the name of a leaf can be read in a section. A node of a tree is read when its key
splits into the node, a key of a map when there is something behind its last slash. -/
def Leaf.Legible (l : Leaf) : KeyedSection → Prop
  | .contextOptions | .branchProtection => '/' ∉ l.repo.toList
  | _ => l.repo.toList.getLast? ≠ some '/'

/-! ### One name -/

/-- A key of a map that holds a slash is read when it splits. -/
theorem Mention.exists_repository?_entry_iff {place : KeyedSection} {key : String}
    (hslash : '/' ∈ key.toList) :
    (∃ p, (Mention.entry place key).repository? = .ok p) ↔
      ∃ pair, RepoKey.split? key = some pair := by
  -- no organisation alone
  have horg : Mention.isOrg key = false := by
    unfold Mention.isOrg
    rw [List.contains_iff_mem.2 hslash]
    rfl
  unfold Mention.repository?
  dsimp only
  -- a key that does not split would have to be an organisation to be read
  cases RepoKey.split? key with
  | some pair => exact ⟨fun _ => ⟨pair, rfl⟩, fun _ => ⟨_, rfl⟩⟩
  | none =>
    dsimp only
    rw [horg, Bool.and_false, if_neg Bool.false_ne_true]
    exact ⟨nofun, nofun⟩

/-- A node of a tree is read when its key splits into the node. -/
theorem Mention.exists_repository?_node_iff {place : KeyedSection} {org repo : String} :
    (∃ p, (Mention.node place org repo).repository? = .ok p) ↔
      RepoKey.split? (RepoKey.join org repo) = some (org, repo) := by
  unfold Mention.repository?
  dsimp only
  split
  · next hsplit => exact ⟨fun _ => hsplit, fun _ => ⟨_, rfl⟩⟩
  · next hsplit => exact ⟨nofun, fun h => absurd h hsplit⟩

theorem Leaf.slash_mem_key (l : Leaf) : '/' ∈ l.key.toList := by
  unfold Leaf.key RepoKey.join
  rw [String.toList_append, String.toList_append]
  exact List.mem_append_left _ (List.mem_append_right _ (List.mem_singleton_self _))

/-- The key of a leaf splits into the leaf's place exactly when its repository holds no slash. -/
theorem Leaf.split_key_iff {l : Leaf} (horg : Text.isBlank l.org = false)
    (hrepo : Text.isBlank l.repo = false) :
    RepoKey.split? l.key = some l.place ↔ '/' ∉ l.repo.toList :=
  ⟨RepoKey.slash_not_mem_of_split,
    RepoKey.split_join (ne_empty_of_not_blank horg) (ne_empty_of_not_blank hrepo)⟩

/-- **A leaf is read where it is legible.** -/
theorem Leaf.exists_repository?_mention_iff {l : Leaf} (horg : Text.isBlank l.org = false)
    (hrepo : Text.isBlank l.repo = false) (s : KeyedSection) :
    (∃ p, (l.mention s).repository? = .ok p) ↔ l.Legible s := by
  have hentry : ∀ s, (∃ p, (Mention.entry s l.key).repository? = .ok p) ↔
      l.repo.toList.getLast? ≠ some '/' := fun s =>
    (Mention.exists_repository?_entry_iff l.slash_mem_key).trans
      (RepoKey.exists_split_join_iff (ne_empty_of_not_blank horg) (ne_empty_of_not_blank hrepo))
  have hnode : ∀ s, (∃ p, (Mention.node s l.org l.repo).repository? = .ok p) ↔
      '/' ∉ l.repo.toList := fun s =>
    Mention.exists_repository?_node_iff.trans (split_key_iff horg hrepo)
  -- two sections name leaves as nodes of a tree, the others by their keys
  cases s with
  | contextOptions => exact hnode _
  | branchProtection => exact hnode _
  | _ => exact hentry _

/-- Without a slash in its repository a leaf is legible everywhere. -/
theorem Leaf.legible_of_no_slash {l : Leaf} (h : '/' ∉ l.repo.toList) (s : KeyedSection) :
    l.Legible s := by
  have hlast : l.repo.toList.getLast? ≠ some '/' := fun hl => h (List.mem_of_getLast? hl)
  cases s with
  | contextOptions => exact h
  | branchProtection => exact h
  | _ => exact hlast

/-! ### All names -/

/-- **When compiled documents are accepted, and what comes back.** They are accepted exactly when
every leaf is legible wherever they name it. A repository that comes back has the key of a leaf, and
it stands at the leaf's own place when the leaf's repository holds no slash and not otherwise. So
when no repository holds a slash, the documents are accepted and every repository that comes back
is that of a leaf. -/
theorem recover_compiled (hd : compile leaves = .ok d) :
    ((∃ r, recover d = .ok r) ↔
      ∀ l ∈ leaves, ∀ s, l.mention s ∈ d.mentions → l.Legible s) ∧
    (∀ r, recover d = .ok r → ∀ s ∈ r.repositories, ∃ l ∈ leaves,
      SourceRepository.key s = l.key ∧
        ((s.spec.org, s.spec.repo) = (l.org, l.repo) ↔ '/' ∉ l.repo.toList)) ∧
    ((∀ l ∈ leaves, '/' ∉ l.repo.toList) →
      ∃ r, recover d = .ok r ∧
        ∀ s ∈ r.repositories, ∃ l ∈ leaves, s.spec.org = l.org ∧ s.spec.repo = l.repo) := by
  obtain ⟨hnames, rfl⟩ := compile_eq_ok_iff.1 hd
  have haccepted : (∃ r, recover (documents leaves) = .ok r) ↔
      ∀ l ∈ leaves, ∀ s, l.mention s ∈ (documents leaves).mentions → l.Legible s := by
    rw [exists_recover_iff]
    constructor
    · intro h l hl s hm
      obtain ⟨horg, hrepo⟩ := hnames l hl
      exact (l.exists_repository?_mention_iff horg hrepo s).1 (h _ hm)
    · -- there are no mentions but those of leaves
      intro h m hm
      obtain ⟨l, hl, s, rfl⟩ := exists_leaf_of_mem_mentions hm
      obtain ⟨horg, hrepo⟩ := hnames l hl
      exact (l.exists_repository?_mention_iff horg hrepo s).2 (h l hl s hm)
  have hreturned : ∀ r, recover (documents leaves) = .ok r → ∀ s ∈ r.repositories, ∃ l ∈ leaves,
      SourceRepository.key s = l.key ∧
        ((s.spec.org, s.spec.repo) = l.place ↔ '/' ∉ l.repo.toList) := by
    intro r hr s hs
    -- a repository comes back from a mention, and mentions are of leaves
    obtain ⟨m, hm, hsplit⟩ := split_of_mem_recovered hr hs
    obtain ⟨l, hl, place, rfl⟩ := exists_leaf_of_mem_mentions hm
    obtain ⟨horg, hrepo⟩ := hnames l hl
    rw [l.key_mention] at hsplit
    refine ⟨l, hl, RepoKey.join_of_split hsplit, ?_⟩
    rw [← Leaf.split_key_iff horg hrepo, hsplit, Option.some.injEq]
  refine ⟨haccepted, hreturned, fun hslash => ?_⟩
  obtain ⟨r, hr⟩ := haccepted.2 fun l hl s _ => Leaf.legible_of_no_slash (hslash l hl) s
  refine ⟨r, hr, fun s hs => ?_⟩
  obtain ⟨l, hl, -, hplace⟩ := hreturned r hr s hs
  exact ⟨l, hl, Prod.mk.inj (hplace.2 (hslash l hl))⟩

namespace Slashed

/-- A fragment that names its repository as the key of a map. -/
def linted : Fragment := { presubmits := some { items := [{ name := "lint" }] } }

/-- A fragment that names its repository as the node of a tree. -/
def checked : Fragment :=
  { merger := some { contextPolicy := some { skipUnknownContexts := some true } } }

/-- The slash belongs to the organisation. -/
def nested : List Leaf := [
  { org := "acme/labs"
    repo := "robot"
    fragment := { checked with presubmits := linted.presubmits } }]

/-- The slash belongs to the repository. -/
def robot (fragment : Fragment) : List Leaf := [{ org := "acme", repo := "labs/robot", fragment }]

theorem recover_compiled_of_nested :
    ∃ d, compile nested = .ok d ∧ ∃ r, recover d = .ok r ∧
      ∀ s ∈ r.repositories, s.spec.org = "acme/labs" ∧ s.spec.repo = "robot" := by
  have hd : compile nested = .ok (documents nested) := compile_eq_ok (by decide)
  obtain ⟨-, -, haccepted⟩ := recover_compiled hd
  obtain ⟨r, hr, hplaces⟩ := haccepted (by decide)
  refine ⟨_, hd, r, hr, fun s hs => ?_⟩
  obtain ⟨l, hl, horg, hrepo⟩ := hplaces s hs
  rw [List.mem_singleton.1 hl] at horg hrepo
  exact ⟨horg, hrepo⟩

/-- What is recovered from the key of a map. -/
def misread : Recovered where
  schedulers := .ofList [
    (defaultSchedulerName, Recover.teamFragment {}), ("acme-labs-robot", linted)]
  repositories := [.ofParts "acme-labs-robot" "acme/labs" "robot" (some "acme-labs-robot")]
  defaultScheduler := defaultSchedulerName

theorem recover_linted : recover (documents (robot linted)) = .ok misread := rfl

/-- **A slash in a repository gets the documents refused, or the repository misread.** As the node
of a tree it is an error, as the key of a map it comes back in another organisation. -/
theorem refused_or_misread :
    (∃ d, compile (robot checked) = .ok d ∧
      recover d = .error { place := .contextOptions, key := "acme/labs/robot" }) ∧
    ∃ d r, compile (robot linted) = .ok d ∧ recover d = .ok r ∧
      ∃ s ∈ r.repositories, ∀ l ∈ robot linted, s.spec.org ≠ l.org ∧ s.spec.repo ≠ l.repo := by
  have hchecked : compile (robot checked) = .ok (documents (robot checked)) :=
    compile_eq_ok (by decide)
  have hlinted : compile (robot linted) = .ok (documents (robot linted)) :=
    compile_eq_ok (by decide)
  refine ⟨⟨_, hchecked, rfl⟩, _, _, hlinted, recover_linted, _, List.mem_singleton_self _, ?_⟩
  rw [robot, List.forall_mem_singleton]
  exact ⟨by decide, by decide⟩

end Slashed

end SchedulerPolicy
