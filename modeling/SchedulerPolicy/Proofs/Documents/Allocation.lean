import Mathlib.Data.List.Nodup
import SchedulerPolicy.Proofs.Documents.Validity

/-!
# Which names are allocated

Repositories are recovered in the order of their keys, and each is given the name that it asks for
unless an earlier one has it; then the first number that is free is put behind the name
(`Allocates`). A name with a number may well be the name that a later repository asks for, which is
then numbered in turn. So it is not enough to tell the repositories that ask for one name apart, and
what carries the argument is an invariant of the whole allocation (`Recovered.Allocated`): the names
given so far, the team's among them, are those of the schedulers, and they are distinct. A step
keeps it because a free name is always found (`get?_freeName`).

`recover_outcome` puts this together with which documents are accepted, and with what is recovered
from those that are (`Recovered.Exact`).
-/

namespace SchedulerPolicy

variable {d : Documents}

/-- What a search for a name ends with: the name asked for, when it is not taken, and else that name
with the least number behind it that is free. -/
def Allocates (taken : List String) (base name : String) : Prop :=
  base ∉ taken ∧ name = base ∨
    base ∈ taken ∧ ∃ i, name = numberedName base i ∧ name ∉ taken ∧
      ∀ j < i, numberedName base j ∈ taken

/-- **The search for a free name ends**, with the first name that is free. -/
theorem allocates_freeName {α : Type} {taken : Keyed α} {names : List String}
    (h : ∀ name, taken.contains name = true ↔ name ∈ names) (base : String) :
    Allocates names base (freeName taken base) := by
  have hfree := get?_freeName taken base
  unfold freeName at hfree ⊢
  by_cases hbase : taken.contains base = true
  · rw [if_pos hbase] at hfree ⊢
    refine Or.inr ⟨(h base).1 hbase, ?_⟩
    dsimp only at hfree ⊢
    rw [List.find?_map] at hfree ⊢
    cases hfind : (List.range taken.entries.length).find?
        ((fun name => !taken.contains name) ∘ numberedName base) with
    | none =>
      -- the name itself would be free
      rw [hfind] at hfree
      exfalso
      unfold Keyed.contains at hbase
      rw [Option.map_none, Option.getD_none] at hfree
      rw [hfree] at hbase
      cases hbase
    | some i =>
      -- the range is searched from below, so the numbers below `i` are taken
      obtain ⟨hi, -, hless⟩ := List.find?_range_eq_some.1 hfind
      refine ⟨i, rfl, fun hmem => ?_, fun j hj => (h _).1 ?_⟩
      · have hname : taken.contains (numberedName base i) = true := (h _).2 hmem
        simp [hname] at hi
      · simpa using hless j hj
  · rw [if_neg hbase]
    exact Or.inl ⟨fun hmem => hbase ((h base).2 hmem), rfl⟩

/-! ### Names given to repositories -/

namespace Recovered

/-- The names given so far, the team's first. -/
def names (r : Recovered) : List String := defaultSchedulerName :: r.repositories.map Resource.name

/-- The names given so far are those of the schedulers, and distinct; a repository refers to the
scheduler of its name, and its name is what the search ended with when it was added. -/
structure Allocated (r : Recovered) : Prop where
  contains_iff : ∀ name, r.schedulers.contains name = true ↔ name ∈ r.names
  nodup : r.names.Nodup
  refers : ∀ s ∈ r.repositories, SourceRepository.scheduler? s = some s.name
  allocates : ∀ before s, before ++ [s] <+: r.repositories →
    Allocates (defaultSchedulerName :: before.map Resource.name)
      (resourceName s.spec.org s.spec.repo) s.name

theorem Allocated.ofTeam (d : JobDocument) : (ofTeam d).Allocated where
  contains_iff name := by
    have hget : (Recovered.ofTeam d).schedulers.get? name =
        if name = defaultSchedulerName then some (Recover.teamFragment d) else none :=
      Keyed.get?_insert ∅ defaultSchedulerName name _
    change ((Recovered.ofTeam d).schedulers.get? name).isSome = true ↔ name ∈ [_]
    rw [hget, List.mem_singleton]
    split
    · next h => exact iff_of_true rfl h
    · next h => exact iff_of_false nofun h
  nodup := List.nodup_singleton _
  refers := List.forall_mem_nil _
  allocates := by
    intro before s hprefix
    exact absurd (List.prefix_nil.1 hprefix) (by simp)

/-- **One repository more** is given a name of its own. -/
theorem Allocated.addRepository {r : Recovered} (h : r.Allocated) (d : Documents)
    (key org repo : String) : (r.addRepository d key org repo).Allocated := by
  let name := freeName r.schedulers (resourceName org repo)
  have hfree : r.schedulers.get? name = none := get?_freeName r.schedulers _
  have hnames : (r.addRepository d key org repo).names = r.names ++ [name] := by
    unfold names Recovered.addRepository
    rw [List.map_append]
    rfl
  -- the search looks at schedulers, and the names given so far are theirs
  have hnew : name ∉ r.names := by
    intro hmem
    have hcontains := (h.contains_iff name).2 hmem
    unfold Keyed.contains at hcontains
    rw [hfree] at hcontains
    cases hcontains
  constructor
  case contains_iff =>
    intro other
    rw [hnames, List.mem_append, List.mem_singleton, ← h.contains_iff]
    unfold Keyed.contains Recovered.addRepository
    rw [Keyed.get?_insert]
    by_cases hother : other = name
    · rw [if_pos hother]
      exact iff_of_true rfl (Or.inr hother)
    · rw [if_neg hother, or_iff_left hother]
  case nodup =>
    rw [hnames, List.nodup_append]
    refine ⟨h.nodup, List.nodup_singleton _, fun a ha b hb heq => hnew ?_⟩
    rw [List.mem_singleton] at hb
    exact hb ▸ heq ▸ ha
  case refers =>
    intro s hs
    rcases List.mem_append.1 hs with hs | hs
    · exact h.refers s hs
    · rw [List.mem_singleton.1 hs]
      change (if Text.isBlank name then none else some name) = some name
      rw [isBlank_freeName r.schedulers org repo]
      rfl
  case allocates =>
    intro before s hprefix
    rcases List.prefix_concat_iff.1 hprefix with heq | hprefix
    · -- the repository that was added
      obtain ⟨rfl, hs⟩ := List.append_inj' heq rfl
      rw [List.singleton_inj.1 hs]
      exact allocates_freeName h.contains_iff _
    · exact h.allocates before s hprefix

theorem addRepository_eq {r : Recovered} {d : Documents} {key org repo base name : String}
    {f : Fragment} (hbase : resourceName org repo = base)
    (hname : freeName r.schedulers base = name)
    (hf : Recover.repositoryFragment d key org repo = f) :
    r.addRepository d key org repo = {
      schedulers := r.schedulers.insert name f
      repositories := r.repositories ++ [SourceRepository.ofParts name org repo (some name)]
      defaultScheduler := r.defaultScheduler } := by
  subst hbase hname hf
  rfl

/-- All repositories are given names. -/
theorem Allocated.foldl (d : Documents) (es : List (String × String × String)) {r : Recovered}
    (h : r.Allocated) :
    (es.foldl (fun r e => r.addRepository d e.1 e.2.1 e.2.2) r).Allocated := by
  induction es generalizing r with
  | nil => exact h
  | cons e es ih => exact ih (h.addRepository d e.1 e.2.1 e.2.2)

/-- There is a scheduler for each name that was given. -/
theorem Allocated.length_schedulers {r : Recovered} (h : r.Allocated) :
    r.schedulers.entries.length = r.repositories.length + 1 := by
  -- keys and names are the same, and neither repeats
  have hperm : r.schedulers.keys.Perm r.names := by
    refine (List.perm_ext_iff_of_nodup (Keyed.nodup_keys _) h.nodup).2 fun name => ?_
    change name ∈ r.schedulers.keys ↔ _
    rw [Keyed.mem_keys_iff, ← h.contains_iff, ← Option.isSome_iff_exists]
    rfl
  have hlength := hperm.length_eq
  unfold Keyed.keys names at hlength
  rwa [List.length_map, List.length_cons, List.length_map] at hlength

end Recovered

theorem allocated_of_recover {r : Recovered} (h : recover d = .ok r) : r.Allocated := by
  obtain ⟨found, -, hr⟩ := bind_eq_ok_iff.1 h
  rw [← Except.ok.inj hr]
  exact (Recovered.Allocated.ofTeam d.jobs).foldl d found.entries

/-! ### What is recovered -/

/-- Exactly what the documents name is recovered: the repositories by key, each once, and for each
of them a scheduler of its own, besides the one of the team. -/
structure Recovered.Exact (d : Documents) (r : Recovered) : Prop where
  ascending : r.repositories.Pairwise fun s t => SourceRepository.key s < SourceRepository.key t
  /-- The repositories are the keys with an organisation and a repository. -/
  mem_keys_iff : ∀ key, key ∈ r.repositories.map SourceRepository.key ↔
    '/' ∈ key.toList ∧ ∃ m, d.Names m ∧ m.key = key
  /-- A key stands for the two sides of its last slash. -/
  places : ∀ s ∈ r.repositories,
    s.spec.org ≠ "" ∧ s.spec.repo ≠ "" ∧ '/' ∉ s.spec.repo.toList
  /-- A repository has the first name that its predecessors and the team leave free. -/
  allocates : ∀ before s, before ++ [s] <+: r.repositories →
    Allocates (defaultSchedulerName :: before.map Resource.name)
      (resourceName s.spec.org s.spec.repo) s.name
  nodup_names : (r.repositories.map Resource.name).Nodup
  default_not_mem : defaultSchedulerName ∉ r.repositories.map Resource.name
  /-- A repository refers to the scheduler of its name, which holds its policy. -/
  own : ∀ s ∈ r.repositories, SourceRepository.scheduler? s = some s.name ∧
    r.schedulers.get? s.name =
      some (Recover.repositoryFragment d (SourceRepository.key s) s.spec.org s.spec.repo)
  length_schedulers : r.schedulers.entries.length = r.repositories.length + 1
  defaultScheduler : r.defaultScheduler = defaultSchedulerName
  /-- The scheduler of the team holds what is not tied to a repository. -/
  team : r.schedulers.get? defaultSchedulerName = some (Recover.teamFragment d.jobs)

/-- A key with a slash names a repository, in whatever section it stands. -/
theorem Mention.WellFormed.exists_place {m : Mention} (h : m.WellFormed)
    (hslash : '/' ∈ m.key.toList) : ∃ p, m.repository? = .ok (some p) := by
  obtain ⟨p?, hp⟩ := exists_repository?_iff.2 h
  cases p? with
  | some p => exact ⟨p, hp⟩
  | none =>
    exfalso
    cases m with
    | node place org repo =>
      unfold repository? at hp
      dsimp only at hp
      split at hp
      · cases Except.ok.inj hp
      · cases hp
    | entry place key =>
      -- no organisation has a slash
      unfold repository? at hp
      dsimp only at hp
      split at hp
      · cases Except.ok.inj hp
      · split at hp
        · next horg =>
          have hcontains : key.toList.contains '/' = true := List.contains_iff_mem.2 hslash
          rw [isOrg, hcontains, Bool.not_true, Bool.false_and, Bool.and_false] at horg
          cases horg
        · cases hp

theorem exact_of_recover {r : Recovered} (h : recover d = .ok r) : r.Exact d := by
  obtain ⟨found, hfound, hcomplete, hplaces⟩ := found_of_recover h
  have hallocated := allocated_of_recover h
  have hsplit : ∀ s ∈ r.repositories, ∃ m ∈ d.mentions,
      RepoKey.split? m.key = some (s.spec.org, s.spec.repo) := fun s hs =>
    split_of_mem_recovered h hs
  obtain ⟨hdefault, hnodup⟩ := List.nodup_cons.1 hallocated.nodup
  constructor
  case ascending => exact ascending_recovered h
  case mem_keys_iff =>
    intro key
    rw [keys_recovered hfound hplaces, mem_keys_of_repositories hfound]
    -- what is read of a mention joins to the key that it was split from
    constructor
    · rintro ⟨m, hm, p, hp, rfl⟩
      have hkey := RepoKey.join_of_split (Mention.split_of_repository? hp)
      exact ⟨by simp [RepoKey.join], m, mem_mentions_iff.1 hm, hkey.symm⟩
    · rintro ⟨hslash, m, hm, rfl⟩
      have hform := exists_recover_iff_wellFormed.1 ⟨r, h⟩ m hm
      obtain ⟨p, hp⟩ := hform.exists_place hslash
      have hkey := RepoKey.join_of_split (Mention.split_of_repository? hp)
      exact ⟨m, mem_mentions_iff.2 hm, p, hp, hkey⟩
  case places =>
    intro s hs
    obtain ⟨m, -, hm⟩ := hsplit s hs
    exact (RepoKey.split_eq_some_iff.1 hm).2
  case allocates => exact hallocated.allocates
  case nodup_names => exact hnodup
  case default_not_mem => exact hdefault
  case own =>
    intro s hs
    obtain ⟨name, hname, hown⟩ := hcomplete.own s hs
    -- the scheduler that holds the policy is the one that the repository refers to
    have hrefers := hallocated.refers s hs
    obtain rfl := Option.some.inj (hname.symm.trans hrefers)
    exact ⟨hrefers, hown⟩
  case length_schedulers => exact hallocated.length_schedulers
  case defaultScheduler => exact hcomplete.default
  case team => exact hcomplete.team

/-- **Which documents are accepted, which key is blamed, and what is recovered.** Documents are
accepted when all keys are well formed, and otherwise refused for the first that is not, in the
order of sections and keys. What is recovered is exactly what they name. -/
theorem recover_outcome (d : Documents) :
    ((∃ r, recover d = .ok r) ↔ ∀ m, d.Names m → m.WellFormed) ∧
    (∀ e, recover d = .error e ↔ ∃ m, d.Names m ∧ ¬m.WellFormed ∧
      (∀ n, d.Names n → n.Before m → n.WellFormed) ∧ e = { place := m.place, key := m.key }) ∧
    ∀ r, recover d = .ok r → r.Exact d :=
  ⟨exists_recover_iff_wellFormed, fun _ => recover_eq_error_iff, fun _ => exact_of_recover⟩

namespace Suffixed

/-- Three repositories, the first two of which ask for one name. The second gets a number, and with
it the name that the third would ask for. An organisation alone has a plugin. -/
def documents : Documents where
  jobs := {
    presubmits := .ofList [
      ("Acme/x.y", [{ name := "lint" }]),
      ("acme/x-y", [{ name := "unit" }]),
      ("acme/x-y-2", [{ name := "push" }])] }
  plugins := { plugins := .ofList [("acme", ["size"])] }

/-- The policy of a repository with one presubmit. -/
def policy (job : String) (plugins : Option (ReplaceList String)) : Fragment :=
  { presubmits := some { items := [{ name := job }] }, plugins }

/-- What is recovered, capitals first. -/
def recovered : Recovered where
  schedulers := .ofList [
    ("default", Recover.teamFragment {}),
    ("acme-x-y", policy "lint" none),
    ("acme-x-y-2", policy "unit" (some { items := ["size"] })),
    ("acme-x-y-2-2", policy "push" (some { items := ["size"] }))]
  repositories := [
    .ofParts "acme-x-y" "Acme" "x.y" (some "acme-x-y"),
    .ofParts "acme-x-y-2" "acme" "x-y" (some "acme-x-y-2"),
    .ofParts "acme-x-y-2-2" "acme" "x-y-2" (some "acme-x-y-2-2")]
  defaultScheduler := "default"

theorem recover_documents : recover documents = .ok recovered := by
  have hfound : documents.repositories = .ok (.ofList [
      ("Acme/x.y", "Acme", "x.y"), ("acme/x-y", "acme", "x-y"),
      ("acme/x-y-2", "acme", "x-y-2")]) := rfl
  refine bind_eq_of_ok hfound (congrArg Except.ok ?_)
  change (((Recovered.ofTeam documents.jobs).addRepository documents "Acme/x.y" "Acme" "x.y"
    ).addRepository documents "acme/x-y" "acme" "x-y"
    ).addRepository documents "acme/x-y-2" "acme" "x-y-2" = _
  -- name by name, for what a name is depends on those before
  have hlint : Recover.repositoryFragment documents "Acme/x.y" "Acme" "x.y" =
      policy "lint" none := rfl
  have hunit : Recover.repositoryFragment documents "acme/x-y" "acme" "x-y" =
      policy "unit" (some { items := ["size"] }) := rfl
  have hpush : Recover.repositoryFragment documents "acme/x-y-2" "acme" "x-y-2" =
      policy "push" (some { items := ["size"] }) := rfl
  have hfirst : resourceName "Acme" "x.y" = "acme-x-y" := rfl
  have hsecond : resourceName "acme" "x-y" = "acme-x-y" := rfl
  have hthird : resourceName "acme" "x-y-2" = "acme-x-y-2" := rfl
  rw [Recovered.addRepository_eq hfirst rfl hlint, Recovered.addRepository_eq hsecond rfl hunit,
    Recovered.addRepository_eq hthird rfl hpush]
  rfl

theorem recover_outcome_of_documents :
    recover documents = .ok recovered ∧ recovered.Exact documents := by
  obtain ⟨-, -, hexact⟩ := recover_outcome documents
  exact ⟨recover_documents, hexact recovered recover_documents⟩

end Suffixed

end SchedulerPolicy
