import SchedulerPolicy.Proofs.Documents.Sections

/-!
# Repositories are kept apart

When no two leaves are for one repository, the documents say about a repository what its leaf says,
and the other leaves have no part in it (`keptApart_of_compile`). This holds of the places that a
repository has to itself: entries under its key, nodes of the trees of status checks and of branch
protection, and entries of the lists of `approve`, `lgtm` and `triggers`.

Keys and nodes come in tables, and a table is described by all of its places at once: a leaf finds
at its place what it has to say itself, and where no leaf has its place there is nothing
(`Tabulates`). A node of an organisation is shared by the leaves of the organisation, but holds
nothing beyond its repositories, of which it has one at least (`Keyed.Populated`). The lists have
one entry for every leaf with rules, in the order of leaves (`ListsEach`).
-/

namespace SchedulerPolicy

variable {β : Type} {leaves : List Leaf}

/-! ### Tables -/

/-- A table has the entry of every leaf at the place of the leaf, and nothing anywhere else. -/
structure Tabulates {κ : Type} (look : κ → Option β) (place : Leaf → κ) (entry : Leaf → Option β)
    (leaves : List Leaf) : Prop where
  ofLeaf : ∀ l ∈ leaves, look (place l) = entry l
  nothingElse : ∀ k, k ∉ leaves.map place → look k = none

theorem tabulates_of_look_eq {κ : Type} [DecidableEq κ] {look : κ → Option β} {place : Leaf → κ}
    {entry : Leaf → Option β} (hnodup : (leaves.map place).Nodup)
    (h : ∀ k, look k = (itemAt place leaves k).bind entry) : Tabulates look place entry leaves where
  ofLeaf l hl := by rw [h, itemAt_key hnodup hl, Option.bind_some]
  nothingElse k hk := by
    have hnone : itemAt place leaves k = none :=
      itemAt_eq_none fun l hl hplace => hk (List.mem_map.2 ⟨l, hl, hplace⟩)
    rw [h, hnone, Option.bind_none]

/-- The nodes of a populated tree are the organisations of the leaves that have an entry in it. -/
theorem Tabulates.mem_keys_iff {γ : Type} {node : Keyed β → γ} {repos : γ → Keyed β}
    {tree : Keyed γ} {entry : Leaf → Option β}
    (h : Tabulates (tree.getIn? repos) Leaf.place entry leaves)
    (hpopulated : tree.Populated node repos) {org : String} :
    org ∈ tree.keys ↔ ∃ l ∈ leaves, l.org = org ∧ (entry l).isSome = true := by
  rw [Keyed.mem_keys_iff]
  constructor
  · rintro ⟨x, hx⟩
    -- the node has a repository, and that is the place of a leaf
    obtain ⟨-, repo, v, hv⟩ := hpopulated org x hx
    have hplace : tree.getIn? repos (org, repo) = some v := by
      unfold Keyed.getIn?
      rw [hx, Option.bind_some, hv]
    by_cases hmem : (org, repo) ∈ leaves.map Leaf.place
    · obtain ⟨l, hl, heq⟩ := List.mem_map.1 hmem
      refine ⟨l, hl, (Prod.mk.inj heq).1, ?_⟩
      rw [← h.ofLeaf l hl, heq, hplace]
      rfl
    · rw [h.nothingElse _ hmem] at hplace
      cases hplace
  · rintro ⟨l, hl, rfl, hentry⟩
    rw [← h.ofLeaf l hl] at hentry
    obtain ⟨v, hv⟩ := Option.isSome_iff_exists.1 hentry
    -- what stands at the place of the leaf stands in a node of its organisation
    obtain ⟨x, hx, -⟩ := Option.bind_eq_some_iff.1 hv
    exact ⟨x, hx⟩

/-! ### Lists -/

/-- A list has one entry for every leaf with rules, in the order of leaves: the rules, with the
repository of the leaf and no other. For a leaf without rules it has none. -/
structure ListsEach {ε ρ : Type} (repos : ε → List String) (rules : ε → ρ) (entries : List ε)
    (given : Leaf → Option ρ) (leaves : List Leaf) : Prop where
  inOrder : (entries.map fun e => (repos e, rules e)) =
    leaves.filterMap fun l => (given l).map fun r => ([l.key], r)
  ofLeaf : ∀ l ∈ leaves,
    (entries.filter fun e => (repos e).contains l.key).map rules = (given l).toList

theorem listsEach_filterMap {ε ρ : Type} {repos : ε → List String} {rules : ε → ρ}
    {given : Leaf → Option ρ} {entry : String → ρ → ε}
    (hrepos : ∀ key r, repos (entry key r) = [key]) (hrules : ∀ key r, rules (entry key r) = r)
    (h : (leaves.map Leaf.key).Nodup) :
    ListsEach repos rules (leaves.filterMap fun l => (given l).map (entry l.key)) given leaves where
  inOrder := by
    rw [List.map_filterMap]
    congr 1
    funext l
    rw [Option.map_map]
    congr 1
    funext r
    exact Prod.ext (hrepos l.key r) (hrules l.key r)
  ofLeaf l hl := by
    -- an entry lists one repository, so it names that one and no other
    have hnames : ∀ key r k, (repos (entry key r)).contains k = (key == k) := by
      intro key r k
      rw [hrepos, List.contains_cons, List.contains_nil, Bool.or_false, Bool.beq_comm]
    rw [filter_filterMap_key h given (fun e key => (repos e).contains key) hnames,
      itemAt_key h hl, Option.bind_some]
    cases given l with
    | none => rfl
    | some r => exact congrArg (fun r => [r]) (hrules l.key r)

/-! ### Branch protection -/

/-- What a leaf says about its repository and the branches of it, in the form of the document. -/
def Leaf.protectionNode (l : Leaf) : RepoProtection where
  policy := ((l.fragment.policy.bind (·.policy)).map WireRules.ofRules).getD {}
  branches := ((l.fragment.policy.bind (·.branches)).getD ∅).map WireRules.ofRules

/-- A node that says nothing is left out, and no other. -/
theorem Leaf.node?_eq (l : Leaf) :
    l.node? = if l.protectionNode = {} then none else some l.protectionNode := by
  have hempty : ∀ node : RepoProtection,
      (node.policy.isEmpty && node.branches.isEmpty) = true ↔ node = {} := by
    rintro ⟨policy, branches⟩
    rw [Bool.and_eq_true, RepoProtection.mk.injEq]
    refine and_congr beq_iff_eq ?_
    rw [Keyed.isEmpty_iff]
    exact ⟨fun h => Keyed.ext_get? h, fun h key => by rw [h]; rfl⟩
  -- a leaf without protection has the node that says nothing
  unfold Leaf.node? Leaf.protectionNode
  cases l.fragment.policy with
  | none => exact (if_pos rfl).symm
  | some p => exact ite_congr (propext (hempty _)) (fun _ => rfl) fun _ => rfl

/-! ### The documents -/

/-- The documents say about every repository what its leaf says, and nothing about others. -/
structure KeptApart (leaves : List Leaf) (d : Documents) : Prop where
  presubmits : Tabulates d.jobs.presubmits.get? Leaf.key
    (fun l => nonEmpty ((l.fragment.presubmits.map (·.items)).getD [])) leaves
  postsubmits : Tabulates d.jobs.postsubmits.get? Leaf.key
    (fun l => nonEmpty ((l.fragment.postsubmits.map (·.items)).getD [])) leaves
  plugins : Tabulates d.plugins.plugins.get? Leaf.key
    (fun l => nonEmpty l.fragment.pluginNames.eraseDups) leaves
  externalPlugins : Tabulates d.plugins.externalPlugins.get? Leaf.key
    (fun l => nonEmpty (itemsOf l.fragment.externalPlugins).eraseDups) leaves
  mergeMethods : Tabulates d.jobs.keeper.mergeMethod.get? Leaf.key
    (fun l => l.fragment.merger.bind (·.mergeMethod)) leaves
  contexts : Tabulates (d.jobs.keeper.contextOptions.orgs.getIn? OrgContexts.repos) Leaf.place
    (fun l => (l.fragment.merger.bind (·.contextPolicy)).map RepoContexts.ofRules) leaves
  /-- Status checks are there for no organisation but those of leaves that have some. -/
  contextOrgs : ∀ org, org ∈ d.jobs.keeper.contextOptions.orgs.keys ↔
    ∃ l ∈ leaves, l.org = org ∧ (l.fragment.merger.bind (·.contextPolicy)).isSome = true
  protection : Tabulates (d.jobs.branchProtection.orgs.getIn? OrgProtection.repos) Leaf.place
    (fun l => if l.protectionNode = {} then none else some l.protectionNode) leaves
  /-- Nor is branch protection. -/
  protectionOrgs : ∀ org, org ∈ d.jobs.branchProtection.orgs.keys ↔
    ∃ l ∈ leaves, l.org = org ∧ l.protectionNode ≠ {}
  /-- An organisation has no rules of its own. -/
  orgRules : ∀ org, ∀ node ∈ d.jobs.branchProtection.orgs.get? org, node.policy = {}
  approve : ListsEach ApproveEntry.repos ApproveEntry.toRules d.plugins.approve
    (·.fragment.approve) leaves
  lgtm : ListsEach LgtmEntry.repos LgtmEntry.toRules d.plugins.lgtm (·.fragment.lgtm) leaves
  triggers : ListsEach TriggerEntry.repos TriggerEntry.toRules d.plugins.triggers
    (·.fragment.trigger) leaves

theorem nonEmpty_map_appendMissing [BEq β] [LawfulBEq β] (xs : List β) :
    (nonEmpty xs).map (appendMissing []) = nonEmpty xs.eraseDups := by
  cases xs with
  | nil => rfl
  | cons x xs =>
    change some (appendMissing [] (x :: xs)) = _
    rw [appendMissing_nil, List.eraseDups_cons]
    rfl

/-- **Documents keep repositories apart.** What they say of a repository is a function of its leaf
alone. -/
theorem keptApart_of_compile {d : Documents} (h : (leaves.map Leaf.key).Nodup)
    (hd : compile leaves = .ok d) : KeptApart leaves d := by
  obtain ⟨-, rfl⟩ := compile_eq_ok_iff.1 hd
  -- the trees come first, because the lists of their organisations are read off them
  have hcontexts : Tabulates ((documents leaves).jobs.keeper.contextOptions.orgs.getIn?
      OrgContexts.repos) Leaf.place
      (fun l => (l.fragment.merger.bind (·.contextPolicy)).map RepoContexts.ofRules) leaves :=
    tabulates_of_look_eq (nodup_place h) fun p => repo?_contextTree h p.1 p.2
  have hprotection : Tabulates ((documents leaves).jobs.branchProtection.orgs.getIn?
      OrgProtection.repos) Leaf.place
      (fun l => if l.protectionNode = {} then none else some l.protectionNode) leaves := by
    refine tabulates_of_look_eq (nodup_place h) fun p => (getIn?_protection h p).trans ?_
    congr 1
    funext l
    exact l.node?_eq
  refine {
    presubmits := tabulates_of_look_eq h (get?_joinedByKey h _)
    postsubmits := tabulates_of_look_eq h (get?_joinedByKey h _)
    plugins := tabulates_of_look_eq h fun k => (get?_distinctByKey h _ k).trans ?plugins
    externalPlugins := tabulates_of_look_eq h fun k => (get?_distinctByKey h _ k).trans ?external
    mergeMethods := tabulates_of_look_eq h (get?_mergeMethods h)
    contexts := hcontexts
    contextOrgs := fun org => ?contextOrgs
    protection := hprotection
    protectionOrgs := fun org => ?protectionOrgs
    orgRules := fun org node hnode => ?orgRules
    approve := listsEach_filterMap (fun _ _ => rfl) (fun _ _ => rfl) h
    lgtm := listsEach_filterMap (fun _ _ => rfl) (fun _ _ => rfl) h
    triggers := listsEach_filterMap (fun _ _ => rfl) (fun _ _ => rfl) h }
  case plugins => simp only [nonEmpty_map_appendMissing]
  case external => simp only [nonEmpty_map_appendMissing]
  case contextOrgs =>
    rw [hcontexts.mem_keys_iff (populated_contextTree leaves)]
    simp only [Option.isSome_map]
  case protectionOrgs =>
    rw [hprotection.mem_keys_iff (populated_protection leaves)]
    simp only [Option.isSome_ite', ne_eq]
  case orgRules =>
    rw [(populated_protection leaves org node hnode).1]

/-! ### An organisation with the key of a repository -/

namespace Nested

/-- The organisation of the second repository is the key of the first one. -/
def team : List Leaf := [
  { org := "acme"
    repo := "labs"
    fragment := {
      presubmits := some { items := [{ name := "lint" }] }
      plugins := some { items := ["trigger", "size", "trigger"] }
      approve := some { issueRequired := some true }
      merger := some { mergeMethod := some "squash" } } },
  { org := "acme/labs"
    repo := "robot"
    fragment := {
      presubmits := some { items := [{ name := "build" }, { name := "lint" }] }
      approve := some { requireSelfApproval := some true }
      policy := some { branches := some (.ofList [("main", { protect := some true })]) }
      merger := some { contextPolicy := some { skipUnknownContexts := some true } } } },
  { org := "acme"
    repo := "shop"
    fragment := {
      plugins := some { items := ["size"] }
      policy := some { policy := some {} } } }]

end Nested

theorem keptApart_of_compile_nested :
    (Nested.team.map Leaf.key).Nodup ∧
      ∃ d, compile Nested.team = .ok d ∧ KeptApart Nested.team d := by
  have hnodup : (Nested.team.map Leaf.key).Nodup := by decide
  have hcompile : compile Nested.team = .ok (documents Nested.team) := compile_eq_ok (by decide)
  exact ⟨hnodup, _, hcompile, keptApart_of_compile hnodup hcompile⟩

end SchedulerPolicy
