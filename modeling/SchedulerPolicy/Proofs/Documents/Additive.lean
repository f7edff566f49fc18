import SchedulerPolicy.Proofs.Documents.MergeQueue
import SchedulerPolicy.Proofs.Documents.Shared

/-!
# Further leaves only add

The documents of some leaves are contained in those of the same leaves followed by leaves for other
repositories (`extended_of_compile`). What "contained" means depends on how a section is shared:

* a table keeps every entry, and changes at the places of the further leaves only (`KeepsTable`);
* a list of one entry a leaf, and the list of periodic jobs, is a prefix of the longer one;
* an entry that names repositories keeps its position and its label, and the further repositories
  come behind those that it lists already (`KeepsEntries`);
* a path, and the report template, stays with the leaf that had it first;
* a setting of the whole is the one exception, as the last leaf that sets it decides; but it is
  never unset (`KeepsSetting`).

Only the keys of the further leaves have to differ from those in front. Leaves in front may have
keys in common with each other, and so may the further ones.

Every section is a loop over the leaves, and the longer loop goes on where the shorter one ends. So
there is one law for each way of sharing, which says what a loop preserves of the state that it
starts with.
-/

namespace SchedulerPolicy

variable {β : Type} {leaves xs ys : List Leaf}

/-! ### Tables -/

/-- What a table finds once leaves are added, against what it found before. -/
structure KeepsTable {κ : Type} (place : Leaf → κ) (added : List Leaf)
    (before after : κ → Option β) : Prop where
  kept : ∀ k v, before k = some v → after k = some v
  elsewhere : ∀ k, k ∉ added.map place → after k = before k

/-- A loop in which a leaf touches its own place keeps what is at the places of the leaves in front,
when these are not the places of the others. -/
theorem keepsTable_foldl {κ σ : Type} [DecidableEq κ] {place : Leaf → κ} {look : σ → κ → Option β}
    {step : σ → Leaf → σ} {s : σ}
    (hstep : ∀ s l k, place l ≠ k → look (step s l) k = look s k) (hs : ∀ k, look s k = none)
    (hne : ∀ x ∈ xs, ∀ y ∈ ys, place x ≠ place y) :
    KeepsTable place ys (look (xs.foldl step s)) (look ((xs ++ ys).foldl step s)) := by
  have helsewhere : ∀ k, k ∉ ys.map place →
      look ((xs ++ ys).foldl step s) k = look (xs.foldl step s) k := by
    intro k hk
    rw [List.foldl_append]
    exact look_foldl_of_ne hstep (fun y hy hplace => hk (List.mem_map.2 ⟨y, hy, hplace⟩)) _
  refine { kept := ?_, elsewhere := helsewhere }
  intro k v hv
  -- an entry is at the place of a leaf in front, or it would not be there
  have hplace : ∃ x ∈ xs, place x = k := by
    apply Classical.byContradiction
    intro hno
    have hother : ∀ x ∈ xs, place x ≠ k := fun x hx hxk => hno ⟨x, hx, hxk⟩
    rw [look_foldl_of_ne hstep hother, hs] at hv
    cases hv
  obtain ⟨x, hx, rfl⟩ := hplace
  rw [helsewhere, hv]
  intro hmem
  obtain ⟨y, hy, hyx⟩ := List.mem_map.1 hmem
  exact hne x hx y hy hyx.symm

/-- What is read off the entries of a table is kept with them. -/
theorem KeepsTable.bind {κ γ : Type} {place : Leaf → κ} {before after : κ → Option β}
    (h : KeepsTable place ys before after) (f : β → Option γ) :
    KeepsTable place ys (fun k => (before k).bind f) fun k => (after k).bind f where
  kept k v hv := by
    obtain ⟨a, ha, hfa⟩ := Option.bind_eq_some_iff.1 hv
    rw [h.kept k a ha, Option.bind_some, hfa]
  elsewhere k hk := by rw [h.elsewhere k hk]

/-- A map in which a leaf alters the value under its key. -/
theorem keepsTable_alterAtKey {γ : Type} (value : Leaf → Option γ) (f : γ → Option β → β)
    (hne : ∀ x ∈ xs, ∀ y ∈ ys, x.key ≠ y.key) :
    KeepsTable Leaf.key ys (xs.foldl (alterAtKey value f) ∅).get?
      ((xs ++ ys).foldl (alterAtKey value f) ∅).get? := by
  -- the loop starts from nothing, and a leaf alters one key
  refine keepsTable_foldl (fun m l k hk => ?_) Keyed.get?_empty hne
  rw [get?_alterAtKey, if_neg hk]

section Sections

variable (hne : ∀ x ∈ xs, ∀ y ∈ ys, x.key ≠ y.key)

include hne

/-- Leaves with different keys have different places. -/
theorem place_ne_of_key_ne : ∀ x ∈ xs, ∀ y ∈ ys, x.place ≠ y.place := by
  intro x hx y hy heq
  obtain ⟨horg, hrepo⟩ := Prod.mk.inj heq
  apply hne x hx y hy
  calc x.key
      = RepoKey.join x.org x.repo := rfl
    _ = RepoKey.join y.org y.repo := by rw [horg, hrepo]
    _ = y.key := rfl

theorem keepsTable_joinedByKey (items : Leaf → List β) :
    KeepsTable Leaf.key ys (Compile.joinedByKey items xs).get?
      (Compile.joinedByKey items (xs ++ ys)).get? := by
  rw [joinedByKey_eq, joinedByKey_eq]
  exact keepsTable_alterAtKey _ _ hne

theorem keepsTable_distinctByKey [BEq β] (items : Leaf → List β) :
    KeepsTable Leaf.key ys (Compile.distinctByKey items xs).get?
      (Compile.distinctByKey items (xs ++ ys)).get? := by
  rw [distinctByKey_eq, distinctByKey_eq]
  exact keepsTable_alterAtKey _ _ hne

theorem keepsTable_mergeMethods :
    KeepsTable Leaf.key ys (Compile.mergeMethods xs).get?
      (Compile.mergeMethods (xs ++ ys)).get? := by
  rw [mergeMethods_eq, mergeMethods_eq]
  exact keepsTable_alterAtKey _ _ hne

theorem keepsTable_contextTree :
    KeepsTable Leaf.place ys ((Compile.contextTree xs).orgs.getIn? OrgContexts.repos)
      ((Compile.contextTree (xs ++ ys)).orgs.getIn? OrgContexts.repos) := by
  have hstep : ∀ (orgs : Keyed OrgContexts) (l : Leaf) (p : String × String), l.place ≠ p →
      (putContexts orgs l).getIn? OrgContexts.repos p = orgs.getIn? OrgContexts.repos p := by
    intro orgs l p hp
    rw [getIn?_putContexts, if_neg hp]
  exact keepsTable_foldl hstep (fun _ => rfl) (place_ne_of_key_ne hne)

/-- The table of protection is kept before it takes the form of the document, and what a node of the
document says is read off the table. -/
theorem keepsTable_protection :
    KeepsTable Leaf.place ys ((protectionOf xs).orgs.getIn? OrgProtection.repos)
      ((protectionOf (xs ++ ys)).orgs.getIn? OrgProtection.repos) := by
  -- a leaf changes the table at its own place
  have hstep : ∀ (table : Compile.ProtectionTable) (l : Leaf) (p : String × String),
      l.place ≠ p → (putProtection table l).getIn? id p = table.getIn? id p := by
    intro table l p hp
    rw [getIn?_putProtection, if_neg hp]
  have htable := (keepsTable_foldl hstep (s := ∅) (fun _ => rfl)
    (place_ne_of_key_ne hne)).bind Compile.repoNode?
  have hread : ∀ leaves : List Leaf,
      (protectionOf leaves).orgs.getIn? OrgProtection.repos =
        fun p => ((leaves.foldl putProtection ∅).getIn? id p).bind Compile.repoNode? :=
    fun leaves => funext (getIn?_filterMap_orgNode? _)
  rwa [hread, hread]

end Sections

/-! ### Lists -/

theorem prefix_appendNew {α κ : Type} [BEq κ] [LawfulBEq κ] (key : α → κ) (own donor : List α) :
    own <+: appendNew key own donor := by
  rw [appendNew_eq]
  exact List.prefix_append _ _

theorem prefix_periodics (xs ys : List Leaf) :
    Compile.periodics xs <+: Compile.periodics (xs ++ ys) := by
  unfold Compile.periodics
  rw [foldl_addPeriodic, foldl_addPeriodic, List.flatMap_append, appendNew_append]
  exact prefix_appendNew _ _ _

theorem prefix_filterMap (entry : Leaf → Option β) (xs ys : List Leaf) :
    xs.filterMap entry <+: (xs ++ ys).filterMap entry := by
  rw [List.filterMap_append]
  exact List.prefix_append _ _

/-! ### Entries that leaves share -/

section Entries

variable {ε κ : Type}

/-- Every entry keeps its position and its label, and goes on listing the repositories that it
lists, with new ones behind them. -/
def KeepsEntries (label : ε → κ) (repos : ε → List String) (before after : List ε) : Prop :=
  ∀ (i : Nat) (e : ε), before[i]? = some e →
    ∃ e' : ε, after[i]? = some e' ∧ label e' = label e ∧ repos e <+: repos e'

theorem KeepsEntries.refl (label : ε → κ) (repos : ε → List String) (entries : List ε) :
    KeepsEntries label repos entries entries :=
  fun _ e he => ⟨e, he, rfl, List.prefix_rfl⟩

theorem KeepsEntries.trans {label : ε → κ} {repos : ε → List String} {a b c : List ε}
    (hab : KeepsEntries label repos a b) (hbc : KeepsEntries label repos b c) :
    KeepsEntries label repos a c := by
  intro i e he
  obtain ⟨e', he', hlabel, hrepos⟩ := hab i e he
  obtain ⟨e'', he'', hlabel', hrepos'⟩ := hbc i e' he'
  exact ⟨e'', he'', hlabel'.trans hlabel, hrepos.trans hrepos'⟩

variable [DecidableEq κ]

/-- A newcomer joins one entry, or comes last. -/
theorem keepsEntries_pool (groups : List (κ × List String)) (q : κ × List String) :
    KeepsEntries Prod.fst Prod.snd groups (pool groups q) := by
  induction groups with
  | nil =>
    intro i e he
    cases he
  | cons g groups ih =>
    intro i e he
    -- it joins the first entry of its label, and the others stay as they are
    by_cases hg : g.1 = q.1
    · rw [pool_cons_of_eq hg]
      cases i with
      | zero =>
        obtain rfl : g = e := Option.some.inj he
        refine ⟨_, rfl, rfl, ?_⟩
        rw [appendMissing_eq_appendNew]
        exact prefix_appendNew _ _ _
      | succ i => exact ⟨e, he, rfl, List.prefix_rfl⟩
    · rw [pool_cons_of_ne hg]
      cases i with
      | zero => exact ⟨e, he, rfl, List.prefix_rfl⟩
      | succ i => exact ih i e he

theorem keepsEntries_poolAll (groups donors : List (κ × List String)) :
    KeepsEntries Prod.fst Prod.snd groups (poolAll groups donors) := by
  induction donors generalizing groups with
  | nil => exact .refl _ _ groups
  | cons q donors ih =>
    rw [poolAll_cons]
    exact (keepsEntries_pool groups q).trans (ih _)

/-- Entries that are groups of leaves keep what they list when leaves are added. -/
theorem keepsEntries_of_grouped {pooled : ε → κ × List String} {labelsOf : Leaf → List κ}
    {before after : List ε} (hbefore : before.map pooled = grouped Leaf.key labelsOf xs [])
    (hafter : after.map pooled = grouped Leaf.key labelsOf (xs ++ ys) []) :
    KeepsEntries (fun e => (pooled e).1) (fun e => (pooled e).2) before after := by
  have hgroups : KeepsEntries Prod.fst Prod.snd (before.map pooled) (after.map pooled) := by
    rw [hbefore, hafter, grouped_eq_poolAll, grouped_eq_poolAll, List.flatMap_append]
    unfold poolAll
    rw [List.foldl_append]
    exact keepsEntries_poolAll _ _
  intro i e he
  obtain ⟨g, hg, hlabel, hrepos⟩ := hgroups i (pooled e) (by rw [List.getElem?_map, he]; rfl)
  rw [List.getElem?_map] at hg
  obtain ⟨e', he', rfl⟩ := Option.map_eq_some_iff.1 hg
  exact ⟨e', he', hlabel, hrepos⟩

end Entries

/-! ### What the first leaf decides -/

theorem get?_published_append {path : String} {target : ConfigMapTarget}
    (h : (Compile.published xs).get? path = some target) :
    (Compile.published (xs ++ ys)).get? path = some target := by
  rw [get?_published] at h ⊢
  rw [List.findSome?_append, h, Option.some_or]

theorem get?_reportTemplates_append {url : String}
    (h : (Compile.reportTemplates xs).get? everyRepository = some url) :
    (Compile.reportTemplates (xs ++ ys)).get? everyRepository = some url := by
  rw [get?_reportTemplates] at h ⊢
  rw [List.findSome?_append, h, Option.some_or]

/-! ### What the last leaf decides -/

section Settings

variable {α : Type} {value : Leaf → Option α}

/-- A setting is what the last leaf that sets it says, and is unset when no leaf sets it. -/
structure DecidedLast (value : Leaf → Option α) (leaves : List Leaf) (setting : Option α) :
    Prop where
  set : ∀ a, setting = some a ↔ ∃ before l after, leaves = before ++ l :: after ∧
    value l = some a ∧ ∀ m ∈ after, value m = none
  unset : setting = none ↔ ∀ l ∈ leaves, value l = none

theorem lastSet_eq_findSome? (value : Leaf → Option α) (leaves : List Leaf) :
    Compile.lastSet value leaves = leaves.reverse.findSome? value := by
  -- the loop keeps what it has unless the next leaf sets something
  have hloop : ∀ (leaves : List Leaf) (earlier : Option α),
      leaves.foldl (fun earlier l => (value l).or earlier) earlier =
        (leaves.reverse.findSome? value).or earlier := by
    intro leaves
    induction leaves with
    | nil => exact fun _ => rfl
    | cons l leaves ih =>
      intro earlier
      rw [List.foldl_cons, ih, List.reverse_cons, List.findSome?_append, Option.or_assoc,
        List.findSome?_singleton]
  unfold Compile.lastSet
  rw [hloop, Option.or_none]

theorem decidedLast_lastSet (value : Leaf → Option α) (leaves : List Leaf) :
    DecidedLast value leaves (Compile.lastSet value leaves) where
  set a := by
    rw [lastSet_eq_findSome?, List.findSome?_eq_some_iff]
    constructor
    · -- the first in the reversed list that sets it is the last in the list
      rintro ⟨after, l, before, heq, hl, hafter⟩
      rw [List.reverse_eq_append_iff, List.reverse_cons, List.append_assoc,
        List.singleton_append] at heq
      exact ⟨before.reverse, l, after.reverse, heq, hl,
        fun m hm => hafter m (List.mem_reverse.1 hm)⟩
    · rintro ⟨before, l, after, rfl, hl, hafter⟩
      refine ⟨after.reverse, l, before.reverse, ?_, hl,
        fun m hm => hafter m (List.mem_reverse.1 hm)⟩
      rw [List.reverse_append, List.reverse_cons, List.append_assoc, List.singleton_append]
  unset := by
    rw [lastSet_eq_findSome?, List.findSome?_eq_none_iff]
    simp only [List.mem_reverse]

/-- A setting before leaves are added and after. -/
structure KeepsSetting (value : Leaf → Option α) (xs ys : List Leaf) (before after : Option α) :
    Prop where
  decided : DecidedLast value xs before
  decidedAfter : DecidedLast value (xs ++ ys) after
  set : before.isSome = true → after.isSome = true

theorem keepsSetting_lastSet (value : Leaf → Option α) (xs ys : List Leaf) :
    KeepsSetting value xs ys (Compile.lastSet value xs) (Compile.lastSet value (xs ++ ys)) where
  decided := decidedLast_lastSet value xs
  decidedAfter := decidedLast_lastSet value (xs ++ ys)
  set := by
    intro h
    rw [lastSet_eq_findSome?] at h ⊢
    rw [List.reverse_append, List.findSome?_append, Option.isSome_or, h, Bool.or_true]

end Settings

/-! ### The documents -/

/-- The documents `c` of the leaves `xs`, and what becomes of them in the documents `d` of the same
leaves followed by `ys`. -/
structure Extended (xs ys : List Leaf) (c d : Documents) : Prop where
  presubmits : KeepsTable Leaf.key ys c.jobs.presubmits.get? d.jobs.presubmits.get?
  postsubmits : KeepsTable Leaf.key ys c.jobs.postsubmits.get? d.jobs.postsubmits.get?
  plugins : KeepsTable Leaf.key ys c.plugins.plugins.get? d.plugins.plugins.get?
  externalPlugins : KeepsTable Leaf.key ys c.plugins.externalPlugins.get?
    d.plugins.externalPlugins.get?
  mergeMethod : KeepsTable Leaf.key ys c.jobs.keeper.mergeMethod.get?
    d.jobs.keeper.mergeMethod.get?
  contexts : KeepsTable Leaf.place ys (c.jobs.keeper.contextOptions.orgs.getIn? OrgContexts.repos)
    (d.jobs.keeper.contextOptions.orgs.getIn? OrgContexts.repos)
  protection : KeepsTable Leaf.place ys
    (c.jobs.branchProtection.orgs.getIn? OrgProtection.repos)
    (d.jobs.branchProtection.orgs.getIn? OrgProtection.repos)
  periodics : c.jobs.periodics <+: d.jobs.periodics
  approve : c.plugins.approve <+: d.plugins.approve
  lgtm : c.plugins.lgtm <+: d.plugins.lgtm
  triggers : c.plugins.triggers <+: d.plugins.triggers
  queries : KeepsEntries Query.search Query.repos c.jobs.keeper.queries d.jobs.keeper.queries
  welcome : KeepsEntries WelcomeEntry.messageTemplate WelcomeEntry.repos c.plugins.welcome
    d.plugins.welcome
  published : ∀ path target, c.plugins.configUpdater.maps.get? path = some target →
    d.plugins.configUpdater.maps.get? path = some target
  reportTemplate : ∀ url, c.jobs.plank.reportTemplates.get? everyRepository = some url →
    d.jobs.plank.reportTemplates.get? everyRepository = some url
  syncPeriod : KeepsSetting (fun l => l.fragment.merger.bind (·.syncPeriod)) xs ys
    c.jobs.keeper.syncPeriod d.jobs.keeper.syncPeriod
  statusUpdatePeriod : KeepsSetting (fun l => l.fragment.merger.bind (·.statusUpdatePeriod)) xs ys
    c.jobs.keeper.statusUpdatePeriod d.jobs.keeper.statusUpdatePeriod
  targetUrl : KeepsSetting (fun l => l.fragment.merger.bind (·.targetUrl)) xs ys
    c.jobs.keeper.targetUrl d.jobs.keeper.targetUrl
  prStatusBaseUrl : KeepsSetting (fun l => l.fragment.merger.bind (·.prStatusBaseUrl)) xs ys
    c.jobs.keeper.prStatusBaseUrl d.jobs.keeper.prStatusBaseUrl
  blockerLabel : KeepsSetting (fun l => l.fragment.merger.bind (·.blockerLabel)) xs ys
    c.jobs.keeper.blockerLabel d.jobs.keeper.blockerLabel
  squashLabel : KeepsSetting (fun l => l.fragment.merger.bind (·.squashLabel)) xs ys
    c.jobs.keeper.squashLabel d.jobs.keeper.squashLabel
  maxGoroutines : KeepsSetting (fun l => l.fragment.merger.bind (·.maxGoroutines)) xs ys
    c.jobs.keeper.maxGoroutines d.jobs.keeper.maxGoroutines
  protectTestedRepos : KeepsSetting (fun l => l.fragment.policy.bind (·.protectTested)) xs ys
    c.jobs.branchProtection.protectTestedRepos d.jobs.branchProtection.protectTestedRepos

/-- **Compiling is additive.** Leaves that have documents have them without their last ones too, and
when the last ones are for other repositories, the documents of the first ones are contained in the
documents of all. -/
theorem extended_of_compile {d : Documents} (hne : ∀ x ∈ xs, ∀ y ∈ ys, x.key ≠ y.key)
    (hd : compile (xs ++ ys) = .ok d) : ∃ c, compile xs = .ok c ∧ Extended xs ys c d := by
  obtain ⟨hnames, rfl⟩ := compile_eq_ok_iff.1 hd
  have hxs : ∀ l ∈ xs, Text.isBlank l.org = false ∧ Text.isBlank l.repo = false :=
    fun l hl => hnames l (List.mem_append_left ys hl)
  refine ⟨documents xs, compile_eq_ok hxs, ?_⟩
  exact {
    presubmits := keepsTable_joinedByKey hne _
    postsubmits := keepsTable_joinedByKey hne _
    plugins := keepsTable_distinctByKey hne _
    externalPlugins := keepsTable_distinctByKey hne _
    mergeMethod := keepsTable_mergeMethods hne
    contexts := keepsTable_contextTree hne
    protection := keepsTable_protection hne
    periodics := prefix_periodics xs ys
    approve := prefix_filterMap _ xs ys
    lgtm := prefix_filterMap _ xs ys
    triggers := prefix_filterMap _ xs ys
    queries := keepsEntries_of_grouped (map_pooled_queries xs) (map_pooled_queries (xs ++ ys))
    welcome := keepsEntries_of_grouped (map_pooled_welcome xs) (map_pooled_welcome (xs ++ ys))
    published := fun _ _ => get?_published_append
    reportTemplate := fun _ => get?_reportTemplates_append
    syncPeriod := keepsSetting_lastSet _ xs ys
    statusUpdatePeriod := keepsSetting_lastSet _ xs ys
    targetUrl := keepsSetting_lastSet _ xs ys
    prStatusBaseUrl := keepsSetting_lastSet _ xs ys
    blockerLabel := keepsSetting_lastSet _ xs ys
    squashLabel := keepsSetting_lastSet _ xs ys
    maxGoroutines := keepsSetting_lastSet _ xs ys
    protectTestedRepos := keepsSetting_lastSet _ xs ys }

namespace Newcomer

def urgent : Query := { labels := ["urgent"] }

def nightly (agent : Option String) : JobSet := { items := [{ name := "nightly", agent }] }

/-- A repository of the team. -/
def shop : Leaf where
  org := "acme"
  repo := "shop"
  fragment := {
    presubmits := some { items := [{ name := "lint" }] }
    periodics := some (nightly none)
    plugins := some { items := ["size"] }
    policy := some { protectTested := some true, policy := some { protect := some true } }
    welcome := some { items := [{ messageTemplate := "hello" }] }
    merger := some { syncPeriod := some "1m", queries := some [urgent] } }

/-- A repository that comes later, with the same search and the same message, and with a periodic
job and a setting of its own under names that are taken. -/
def depot : Leaf where
  org := "acme"
  repo := "depot"
  fragment := {
    periodics := some (nightly (some "jenkins"))
    policy := some { policy := some { protect := some false } }
    welcome := some { items := [{ messageTemplate := "hi" }, { messageTemplate := "hello" }] }
    merger := some { syncPeriod := some "2m", queries := some [urgent] } }

theorem extended_of_compile_depot :
    (∀ x ∈ [shop], ∀ y ∈ [depot], x.key ≠ y.key) ∧
      ∃ d, compile ([shop] ++ [depot]) = .ok d ∧
        d.jobs.keeper.queries = [{ urgent with repos := ["acme/shop", "acme/depot"] }] ∧
        d.jobs.keeper.syncPeriod = some "2m" ∧
        ∃ c, compile [shop] = .ok c ∧ c.jobs.keeper.syncPeriod = some "1m" ∧
          Extended [shop] [depot] c d := by
  have hne : ∀ x ∈ [shop], ∀ y ∈ [depot], x.key ≠ y.key := by decide
  have hd : compile ([shop] ++ [depot]) = .ok (documents [shop, depot]) := compile_eq_ok (by decide)
  have hqueries : (documents [shop, depot]).jobs.keeper.queries =
      [{ urgent with repos := ["acme/shop", "acme/depot"] }] := by decide
  obtain ⟨c, hc, hextended⟩ := extended_of_compile hne hd
  -- the documents of the one leaf are determined
  obtain rfl : c = documents [shop] := (compile_eq_ok_iff.1 hc).2
  exact ⟨hne, _, hd, hqueries, rfl, _, hc, rfl, hextended⟩

end Newcomer

end SchedulerPolicy
