import SchedulerPolicy.Document.Recovered
import SchedulerPolicy.Proofs.Documents.Grouping
import SchedulerPolicy.Proofs.Merge.Laws

/-!
# What the sections of the documents hold

For leaves with distinct keys, every section is described by what a look-up finds in it: the leaf of
the key and nothing else decides. This file has one such law for each section that has places of its
own for repositories, be they keys of a map (`get?_joinedByKey`, `get?_distinctByKey`,
`get?_mergeMethods`), nodes of a tree (`repo?_contextTree`, `getIn?_protection`) or entries of a
list (`find?_filterMap_key`).

The branch protection of a repository is filled in from nothing but the one leaf, and filling in
from nothing changes nothing; so `compile` fails on a blank name only (`compile_eq_ok_iff`).
-/

namespace SchedulerPolicy

variable {β : Type} {leaves : List Leaf}

/-- The items of a list, unless there are none. -/
def nonEmpty (xs : List β) : Option (List β) := if xs.isEmpty then none else some xs

/-- What a leaf with a value makes of what is at its place. A leaf without one lets it be. -/
def putValue {γ : Type} (value : Leaf → Option γ) (f : γ → Option β → β) (l : Leaf)
    (earlier : Option β) : Option β :=
  match value l with
  | some v => some (f v earlier)
  | none => earlier

theorem putValue_none {γ : Type} (value : Leaf → Option γ) (f : γ → Option β → β) (l : Leaf) :
    putValue value f l none = (value l).map fun v => f v none := by
  unfold putValue
  cases value l <;> rfl

/-! ### Keys of maps -/

/-- A map once a leaf has altered the value under its key. -/
def alterAtKey {γ : Type} (value : Leaf → Option γ) (f : γ → Option β → β) (m : Keyed β)
    (l : Leaf) : Keyed β :=
  match value l with
  | some v => m.alter l.key (f v)
  | none => m

theorem get?_alterAtKey {γ : Type} (value : Leaf → Option γ) (f : γ → Option β → β) (m : Keyed β)
    (l : Leaf) (k : String) :
    (alterAtKey value f m l).get? k =
      if l.key = k then putValue value f l (m.get? k) else m.get? k := by
  unfold alterAtKey putValue
  cases value l with
  | none => exact (ite_self _).symm
  | some v =>
    dsimp only
    rw [Keyed.get?_alter]
    by_cases hk : l.key = k
    · rw [if_pos hk.symm, if_pos hk, hk]
    · rw [if_neg hk, if_neg (Ne.symm hk)]

/-! The three kinds of tables are loops of that kind. -/

theorem joinedByKey_eq (items : Leaf → List β) (leaves : List Leaf) :
    Compile.joinedByKey items leaves =
      leaves.foldl (alterAtKey (fun l => nonEmpty (items l))
        fun xs earlier => earlier.getD [] ++ xs) ∅ := by
  unfold Compile.joinedByKey alterAtKey
  congr 1
  funext m l
  dsimp only
  cases items l <;> rfl

theorem distinctByKey_eq [BEq β] (items : Leaf → List β) (leaves : List Leaf) :
    Compile.distinctByKey items leaves =
      leaves.foldl (alterAtKey (fun l => nonEmpty (items l))
        fun xs earlier => appendMissing (earlier.getD []) xs) ∅ := by
  unfold Compile.distinctByKey alterAtKey
  congr 1
  funext m l
  dsimp only
  cases items l <;> rfl

theorem mergeMethods_eq (leaves : List Leaf) :
    Compile.mergeMethods leaves =
      leaves.foldl (alterAtKey (fun l => l.fragment.merger.bind (·.mergeMethod))
        fun method _ => method) ∅ := by
  unfold Compile.mergeMethods alterAtKey
  congr 1
  funext m l
  dsimp only
  cases l.fragment.merger.bind (·.mergeMethod) <;> rfl

section Keys

variable (h : (leaves.map Leaf.key).Nodup)

include h

/-- A loop in which a leaf alters the value under its key, or does nothing. -/
theorem get?_foldl_alterAtKey {γ : Type} (value : Leaf → Option γ) (f : γ → Option β → β)
    (k : String) :
    (leaves.foldl (alterAtKey value f) ∅).get? k =
      (itemAt Leaf.key leaves k).bind fun l => (value l).map fun v => f v none := by
  -- the keys are distinct, so one leaf at most has altered what is under the key
  rw [look_foldl_of_none (get?_alterAtKey value f) h Keyed.get?_empty]
  simp only [putValue_none]

theorem get?_joinedByKey (items : Leaf → List β) (k : String) :
    (Compile.joinedByKey items leaves).get? k =
      (itemAt Leaf.key leaves k).bind fun l => nonEmpty (items l) := by
  rw [joinedByKey_eq, get?_foldl_alterAtKey h]
  congr 1
  funext l
  cases items l <;> rfl

theorem get?_distinctByKey [BEq β] (items : Leaf → List β) (k : String) :
    (Compile.distinctByKey items leaves).get? k =
      (itemAt Leaf.key leaves k).bind fun l => (nonEmpty (items l)).map (appendMissing []) := by
  rw [distinctByKey_eq, get?_foldl_alterAtKey h]
  rfl

theorem get?_mergeMethods (k : String) :
    (Compile.mergeMethods leaves).get? k =
      (itemAt Leaf.key leaves k).bind fun l => l.fragment.merger.bind (·.mergeMethod) := by
  rw [mergeMethods_eq, get?_foldl_alterAtKey h]
  simp only [Option.map_id']

end Keys

/-! ### Nodes of trees -/

/-- The place of a leaf in a tree. -/
def Leaf.place (l : Leaf) : String × String := (l.org, l.repo)

theorem nodup_place (h : (leaves.map Leaf.key).Nodup) : (leaves.map Leaf.place).Nodup := by
  refine List.pairwise_map.2 ((List.pairwise_map.1 h).imp fun {l m} hne heq => hne ?_)
  change RepoKey.join l.place.1 l.place.2 = RepoKey.join m.place.1 m.place.2
  rw [heq]

/-- A loop in which a leaf sets the value at its place, or does nothing. -/
theorem getIn?_foldl (h : (leaves.map Leaf.key).Nodup) {γ δ : Type} {repos : γ → Keyed β}
    {step : Keyed γ → Leaf → Keyed γ} {value : Leaf → Option δ} {f : δ → Option β → β}
    (hstep : ∀ m l q, (step m l).getIn? repos q =
      if l.place = q then putValue value f l (m.getIn? repos q) else m.getIn? repos q)
    (p : String × String) :
    (leaves.foldl step ∅).getIn? repos p =
      (itemAt Leaf.place leaves p).bind fun l => (value l).map fun v => f v none := by
  refine (look_foldl_of_none hstep (nodup_place h) (fun _ => rfl) p).trans ?_
  simp only [putValue_none]

/-- Every node of a tree consists of its repositories, of which it has at least one. -/
def Keyed.Populated {γ : Type} (node : Keyed β → γ) (repos : γ → Keyed β) (m : Keyed γ) : Prop :=
  ∀ org, ∀ x ∈ m.get? org, x = node (repos x) ∧ ∃ repo v, (repos x).get? repo = some v

/-- Such trees are the same when they hold the same at every place. -/
theorem Keyed.Populated.ext {γ : Type} {node : Keyed β → γ} {repos : γ → Keyed β} {m n : Keyed γ}
    (hm : m.Populated node repos) (hn : n.Populated node repos)
    (h : ∀ p, m.getIn? repos p = n.getIn? repos p) : m = n := by
  have hfound : ∀ {m n : Keyed γ}, m.Populated node repos → n.Populated node repos →
      (∀ p, m.getIn? repos p = n.getIn? repos p) →
      ∀ {org x}, m.get? org = some x → n.get? org = some x := by
    intro m n hm hn h org x hx
    obtain ⟨hnode, repo, v, hv⟩ := hm org x hx
    have hplace : ∀ repo, (repos x).get? repo = (n.get? org).bind fun y => (repos y).get? repo := by
      intro repo
      have hp := h (org, repo)
      unfold getIn? at hp
      rwa [hx, Option.bind_some] at hp
    cases hy : n.get? org with
    | none =>
      -- the repositories of the node would have no place
      rw [hplace, hy] at hv
      cases hv
    | some y =>
      have hrepos : repos x = repos y := Keyed.ext_get? fun repo => by
        rw [hplace, hy, Option.bind_some]
      rw [hnode, hrepos, ← (hn org y hy).1]
  refine Keyed.ext_get? fun org => Option.ext fun x => ⟨hfound hm hn h, hfound hn hm fun p => ?_⟩
  exact (h p).symm

/-! ### Status checks -/

/-- The nodes of status checks once a leaf has given its repository what it has for it. -/
def putContexts (orgs : Keyed OrgContexts) (l : Leaf) : Keyed OrgContexts :=
  match l.fragment.merger.bind (·.contextPolicy) with
  | some rules => orgs.alter l.org fun node =>
    { repos := (node.getD {}).repos.insert l.repo (RepoContexts.ofRules rules) }
  | none => orgs

theorem populated_putContexts {orgs : Keyed OrgContexts}
    (h : orgs.Populated (fun repos => { repos }) OrgContexts.repos) (l : Leaf) :
    (putContexts orgs l).Populated (fun repos => { repos }) OrgContexts.repos := by
  unfold putContexts
  cases l.fragment.merger.bind (·.contextPolicy) with
  | none => exact h
  | some rules =>
    intro org x hx
    dsimp only at hx
    rw [Keyed.get?_alter] at hx
    by_cases horg : org = l.org
    · rw [if_pos horg] at hx
      -- the node of the organisation has the repository of the leaf in it
      obtain rfl := Option.some.inj hx
      exact ⟨rfl, l.repo, _, (Keyed.get?_insert _ _ _ _).trans (if_pos rfl)⟩
    · rw [if_neg horg] at hx
      exact h org x hx

theorem populated_contextTree (leaves : List Leaf) :
    (Compile.contextTree leaves).orgs.Populated (fun repos => { repos }) OrgContexts.repos := by
  have hfold : ∀ {orgs : Keyed OrgContexts},
      orgs.Populated (fun repos => { repos }) OrgContexts.repos →
      (leaves.foldl putContexts orgs).Populated (fun repos => { repos }) OrgContexts.repos := by
    induction leaves with
    | nil => exact fun h => h
    | cons l leaves ih => exact fun h => ih (populated_putContexts h l)
  exact hfold (by rintro org x ⟨⟩)

theorem getIn?_putContexts (orgs : Keyed OrgContexts) (l : Leaf) (q : String × String) :
    (putContexts orgs l).getIn? OrgContexts.repos q =
      if l.place = q then
        putValue (fun l => l.fragment.merger.bind (·.contextPolicy))
          (fun rules _ => RepoContexts.ofRules rules) l (orgs.getIn? OrgContexts.repos q)
      else orgs.getIn? OrgContexts.repos q := by
  unfold putContexts putValue
  dsimp only
  cases l.fragment.merger.bind (·.contextPolicy) with
  | none => exact (ite_self _).symm
  | some rules =>
    refine Keyed.getIn?_alter (p := l.place) ?_ q
    cases orgs.get? l.place.1 <;> rfl

theorem repo?_contextTree (h : (leaves.map Leaf.key).Nodup) (org repo : String) :
    (Compile.contextTree leaves).repo? org repo =
      (itemAt Leaf.place leaves (org, repo)).bind fun l =>
        (l.fragment.merger.bind (·.contextPolicy)).map RepoContexts.ofRules :=
  getIn?_foldl h getIn?_putContexts (org, repo)

/-! ### Branch protection -/

/-- The protection of a repository, laid over what the repository has so far. -/
def protectionOver (p : Protection) (earlier : Option Protection) : Protection :=
  onto (earlier.getD {}) { p with protectTested := none }

/-- The table of protection once a leaf has given its repository what it has for it. -/
def putProtection (table : Compile.ProtectionTable) (l : Leaf) : Compile.ProtectionTable :=
  match l.fragment.policy with
  | none => table
  | some p =>
    let repos := (table.get? l.org).getD ∅
    table.insert l.org (repos.insert l.repo (protectionOver p (repos.get? l.repo)))

theorem addProtection_eq (table : Compile.ProtectionTable) (l : Leaf) :
    Compile.addProtection table l = .ok (putProtection table l) := by
  unfold Compile.addProtection putProtection
  cases l.fragment.policy with
  | none => rfl
  | some p =>
    -- protection has no jobs that could be in conflict, so it is filled in without fail
    simp only [fill_eq]
    rfl

theorem foldlM_addProtection (leaves : List Leaf) (table : Compile.ProtectionTable) :
    leaves.foldlM Compile.addProtection table = .ok (leaves.foldl putProtection table) := by
  induction leaves generalizing table with
  | nil => rfl
  | cons l leaves ih =>
    rw [List.foldlM_cons, addProtection_eq]
    exact ih _

/-- The tree of protection. -/
def protectionOf (leaves : List Leaf) : ProtectionTree where
  protectTestedRepos := Compile.lastSet (fun l => l.fragment.policy.bind (·.protectTested)) leaves
  orgs := (leaves.foldl putProtection ∅).filterMap Compile.orgNode?

/-- Branch protection never stands in the way. -/
theorem protectionTree_eq (leaves : List Leaf) :
    Compile.protectionTree leaves = .ok (protectionOf leaves) := by
  unfold Compile.protectionTree
  rw [foldlM_addProtection]
  rfl

/-- What is said in general for all repositories does not show in the node of one. -/
theorem repoNode?_protectionOver (p : Protection) :
    Compile.repoNode? (protectionOver p none) = Compile.repoNode? p := by
  have hpolicy : (protectionOver p none).policy = p.policy := none_onto p.policy
  have hbranches : (protectionOver p none).branches = p.branches := none_onto p.branches
  unfold Compile.repoNode?
  rw [hpolicy, hbranches]

/-- The node of a leaf's repository, if the leaf has anything to say in it. -/
def Leaf.node? (l : Leaf) : Option RepoProtection := l.fragment.policy.bind Compile.repoNode?

theorem getIn?_putProtection (table : Compile.ProtectionTable) (l : Leaf) (q : String × String) :
    (putProtection table l).getIn? id q =
      if l.place = q then putValue (·.fragment.policy) protectionOver l (table.getIn? id q)
      else table.getIn? id q := by
  unfold putProtection putValue
  dsimp only
  cases l.fragment.policy with
  | none => exact (ite_self _).symm
  | some policy =>
    -- a node that is missing holds nothing, like a repository that is
    have hearlier : ((table.get? l.org).getD ∅).get? l.repo = table.getIn? id l.place := by
      change _ = (table.get? l.org).bind _
      cases table.get? l.org <;> rfl
    simp only [hearlier]
    refine (Keyed.getIn?_alter (p := l.place) (v := protectionOver policy (table.getIn? id l.place))
      ?_ q).trans ?_
    · rw [Option.map_id]
      rfl
    · by_cases hq : l.place = q
      · rw [if_pos hq, if_pos hq, hq]
      · rw [if_neg hq, if_neg hq]

theorem getIn?_foldl_putProtection (h : (leaves.map Leaf.key).Nodup) (p : String × String) :
    (leaves.foldl putProtection ∅).getIn? id p =
      (itemAt Leaf.place leaves p).bind fun l => l.fragment.policy.map (protectionOver · none) :=
  getIn?_foldl h getIn?_putProtection p

/-- An organisation's node holds the nodes of its repositories. -/
theorem getIn?_filterMap_orgNode? (table : Compile.ProtectionTable) (p : String × String) :
    (table.filterMap Compile.orgNode?).getIn? OrgProtection.repos p =
      (table.getIn? id p).bind Compile.repoNode? := by
  unfold Keyed.getIn?
  rw [Keyed.get?_filterMap]
  cases table.get? p.1 with
  | none => rfl
  | some repos =>
    rw [Option.bind_some, Option.bind_some, id, ← Keyed.get?_filterMap]
    unfold Compile.orgNode?
    dsimp only
    cases hempty : (repos.filterMap Compile.repoNode?).isEmpty with
    | true =>
      -- a node that would be empty is left out
      exact (Keyed.isEmpty_iff.1 hempty p.2).symm
    | false => rfl

/-- The nodes of the tree of protection are those of the leaves. -/
theorem getIn?_protection (h : (leaves.map Leaf.key).Nodup) (p : String × String) :
    (protectionOf leaves).orgs.getIn? OrgProtection.repos p =
      (itemAt Leaf.place leaves p).bind Leaf.node? := by
  unfold protectionOf
  -- the node is that of what was laid over nothing
  rw [getIn?_filterMap_orgNode?, getIn?_foldl_putProtection h, Option.bind_assoc]
  congr 1
  funext l
  unfold Leaf.node?
  cases l.fragment.policy with
  | none => rfl
  | some policy => exact repoNode?_protectionOver policy

theorem populated_protection (leaves : List Leaf) :
    (protectionOf leaves).orgs.Populated (fun repos => { repos }) OrgProtection.repos := by
  intro org x hx
  change ((leaves.foldl putProtection ∅).filterMap Compile.orgNode?).get? org = some x at hx
  rw [Keyed.get?_filterMap, Option.bind_eq_some_iff] at hx
  obtain ⟨repos, -, hnode⟩ := hx
  unfold Compile.orgNode? at hnode
  dsimp only at hnode
  split at hnode
  · cases hnode
  · -- a node that is kept has a repository in it
    next hempty =>
    obtain rfl := Option.some.inj hnode
    exact ⟨rfl, Keyed.isEmpty_eq_false_iff.1 (Bool.not_eq_true _ ▸ hempty)⟩

/-! ### Entries of lists -/

/-- When an entry names one repository, only the leaf of a repository can bring one for it. -/
theorem filter_filterMap_key {ε ρ : Type} (h : (leaves.map Leaf.key).Nodup)
    (rules : Leaf → Option ρ) {entry : String → ρ → ε} (names : ε → String → Bool)
    (hnames : ∀ key r k, names (entry key r) k = (key == k)) (k : String) :
    (leaves.filterMap fun l => (rules l).map (entry l.key)).filter (names · k) =
      ((itemAt Leaf.key leaves k).bind fun l => (rules l).map (entry l.key)).toList := by
  induction leaves with
  | nil => rfl
  | cons l leaves ih =>
    rw [List.map_cons, List.nodup_cons] at h
    have hrest := ih h.2
    by_cases hk : l.key = k
    · -- a leaf without rules has no entry, and no other leaf has its key
      have hnone : itemAt Leaf.key leaves k = none := itemAt_eq_none fun m hm hmk =>
        h.1 (List.mem_map.2 ⟨m, hm, hmk.trans hk.symm⟩)
      rw [hnone] at hrest
      rw [itemAt_cons_of_eq hk, Option.bind_some]
      cases hr : rules l with
      | none => rw [List.filterMap_cons_none (by rw [hr]; rfl), hrest]; rfl
      | some r =>
        rw [List.filterMap_cons_some (by rw [hr]; rfl), List.filter_cons, hnames, beq_iff_eq.2 hk,
          if_pos rfl, hrest]
        rfl
    · rw [itemAt_cons_of_ne hk]
      cases hr : rules l with
      | none => rw [List.filterMap_cons_none (by rw [hr]; rfl), hrest]
      | some r =>
        rw [List.filterMap_cons_some (by rw [hr]; rfl), List.filter_cons, hnames,
          beq_false_of_ne hk, if_neg Bool.false_ne_true, hrest]

/-- An entry that names one repository is found by the key of its leaf. -/
theorem find?_filterMap_key {ε ρ : Type} (h : (leaves.map Leaf.key).Nodup)
    {rules : Leaf → Option ρ} {entry : String → ρ → ε} {names : ε → String → Bool}
    (hnames : ∀ key r k, names (entry key r) k = (key == k)) (k : String) :
    (leaves.filterMap fun l => (rules l).map (entry l.key)).find? (names · k) =
      (itemAt Leaf.key leaves k).bind fun l => (rules l).map (entry l.key) := by
  rw [← List.head?_filter, filter_filterMap_key h rules names hnames, Option.head?_toList]

/-! ### The documents -/

/-- The documents of leaves that have some. -/
def documents (leaves : List Leaf) : Documents where
  jobs := Compile.jobDocument leaves (protectionOf leaves)
  plugins := Compile.pluginDocument leaves

theorem checkNames_eq_ok_iff {l : Leaf} :
    l.checkNames = .ok () ↔ Text.isBlank l.org = false ∧ Text.isBlank l.repo = false := by
  unfold Leaf.checkNames
  rw [← Bool.or_eq_false_iff]
  cases Text.isBlank l.org || Text.isBlank l.repo with
  | true => exact ⟨nofun, nofun⟩
  | false => exact ⟨fun _ => rfl, fun _ => rfl⟩

/-- Names are checked leaf by leaf, and the check of a leaf does not depend on the others. -/
theorem forM_checkNames_eq_ok_iff :
    leaves.forM Leaf.checkNames = .ok () ↔
      ∀ l ∈ leaves, Text.isBlank l.org = false ∧ Text.isBlank l.repo = false := by
  induction leaves with
  | nil => exact ⟨fun _ => List.forall_mem_nil _, fun _ => rfl⟩
  | cons l leaves ih =>
    rw [List.forall_mem_cons, ← checkNames_eq_ok_iff, ← ih]
    change (l.checkNames >>= fun _ => leaves.forM Leaf.checkNames) = _ ↔ _
    cases l.checkNames with
    | error e => exact ⟨nofun, nofun⟩
    | ok => exact ⟨fun h => ⟨rfl, h⟩, And.right⟩

/-- **When leaves have documents, and which.** -/
theorem compile_eq_ok_iff {d : Documents} :
    compile leaves = .ok d ↔
      (∀ l ∈ leaves, Text.isBlank l.org = false ∧ Text.isBlank l.repo = false) ∧
        d = documents leaves := by
  rw [← forM_checkNames_eq_ok_iff]
  unfold compile
  rw [protectionTree_eq]
  cases leaves.forM Leaf.checkNames with
  | error e => exact ⟨nofun, nofun⟩
  | ok =>
    change Except.ok (documents leaves) = _ ↔ _
    rw [Except.ok.injEq, eq_comm]
    exact ⟨fun h => ⟨rfl, h⟩, And.right⟩

/-- Leaves whose organisations and repositories are not blank have documents. -/
theorem compile_eq_ok
    (h : ∀ l ∈ leaves, Text.isBlank l.org = false ∧ Text.isBlank l.repo = false) :
    compile leaves = .ok (documents leaves) := compile_eq_ok_iff.2 ⟨h, rfl⟩

end SchedulerPolicy
