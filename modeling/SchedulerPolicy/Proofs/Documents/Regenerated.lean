import SchedulerPolicy.Proofs.Documents.Enumerated
import SchedulerPolicy.Proofs.Documents.MergeQueue
import SchedulerPolicy.Proofs.Documents.Protection
import SchedulerPolicy.Proofs.Documents.Shared
import SchedulerPolicy.Proofs.Resolution.InjectedLeaf

/-!
# Documents that nobody compiled

Documents kept by hand need not look like compiled ones. Jobs may repeat their names, plugins may be
given to a whole organisation, rules may be set for every repository at once, and two repositories
may come to one resource name. Yet whatever `recover` accepts can be generated and compiled again
(`exists_regenerated`), and the job document that results says the same in the sections that belong
to jobs and to the queue as a whole (`Regenerated`).

Filling in can only fail on jobs, when both fragments have some in one section. The scheduler of the
team has periodic jobs and no others, that of a repository has all but these, and the injection has
none, so no name is ever looked for. And since every leaf is the policy of its repository laid over
that of the team, every leaf says all that the job document says in general, and of the rest what it
says of the leaf's repository (`Leaf.Repeats`). The sections compiled from such leaves are then
determined, whichever leaf is the first or the last.
-/

namespace SchedulerPolicy

variable {d : Documents} {leaves : List Leaf}

/-- What a job document says of one repository, and what it says in general, is what a leaf says. -/
structure Leaf.Repeats (d : JobDocument) (l : Leaf) : Prop where
  presubmits : (l.fragment.presubmits.map (·.items)).getD [] = (d.presubmits.get? l.key).getD []
  postsubmits : (l.fragment.postsubmits.map (·.items)).getD [] = (d.postsubmits.get? l.key).getD []
  periodics : (l.fragment.periodics.map (·.items)).getD [] = d.periodics
  /-- The settings of the queue as a whole. -/
  settings : { l.fragment.merger.getD {} with
    mergeMethod := none, queries := none, contextPolicy := none } = d.keeper.globalRules
  contexts : (l.fragment.merger.bind (·.contextPolicy)).map RepoContexts.ofRules =
    d.keeper.contextOptions.repo? l.org l.repo
  protectTested : l.fragment.policy.bind (·.protectTested) = d.branchProtection.protectTestedRepos
  reportTemplate : l.reportTemplate? = d.plank.reportTemplates.get? everyRepository

/-- A job document that was regenerated from another. -/
structure Regenerated (d d' : JobDocument) : Prop where
  /-- Keys without jobs are gone. -/
  presubmits : d'.presubmits = d.presubmits.filterMap nonEmpty
  postsubmits : d'.postsubmits = d.postsubmits.filterMap nonEmpty
  /-- Of periodic jobs with one name the first is left. -/
  periodics : d'.periodics = d.periodics.eraseDupsBy fun job other => job.name == other.name
  settings : d'.keeper.globalRules = d.keeper.globalRules
  contexts : ∀ org repo, d'.keeper.contextOptions.repo? org repo =
    d.keeper.contextOptions.repo? org repo
  protectTested : d'.branchProtection.protectTestedRepos = d.branchProtection.protectTestedRepos
  reportTemplate : d'.plank.reportTemplates.get? everyRepository =
    d.plank.reportTemplates.get? everyRepository

/-! ### Leaves that repeat a document -/

/-- **The leaf of a recovered repository repeats the document.** -/
theorem repeats_leaf (d : Documents) (org repo : String) :
    (Recover.leaf d org repo).Repeats d.jobs where
  presubmits := items_onto_jobSet? d.jobs.presubmits _
  postsubmits := items_onto_jobSet? d.jobs.postsubmits _
  periodics := periodics_leaf d org repo
  settings := by
    let rules := (Recover.leaf d org repo).fragment.merger
    have hsetting : ∀ {α : Type} [Onto α] (value : MergeRules → Option α), value {} = none →
        (∀ a b, value (onto a b) = onto (value a) (value b)) →
        (∀ mergeMethod contextPolicy queries,
          value { mergeMethod, contextPolicy, queries } = none) →
        value (rules.getD {}) = value d.jobs.keeper.globalRules := by
      intro α _ value hvalue honto hglobal
      -- the repository leaves the settings open, so they are those of the team
      rw [← setting_leaf hvalue honto hglobal d (Recover.leaf d org repo)]
      change value (rules.getD {}) = rules.bind value
      cases rules with
      | none => exact hvalue
      | some found => rfl
    -- seven settings, and three fields that neither side has
    ext1
    case mergeMethod => rfl
    case queries => rfl
    case contextPolicy => rfl
    case syncPeriod => exact hsetting (·.syncPeriod) rfl (fun _ _ => rfl) fun _ _ _ => rfl
    case statusUpdatePeriod =>
      exact hsetting (·.statusUpdatePeriod) rfl (fun _ _ => rfl) fun _ _ _ => rfl
    case targetUrl => exact hsetting (·.targetUrl) rfl (fun _ _ => rfl) fun _ _ _ => rfl
    case prStatusBaseUrl => exact hsetting (·.prStatusBaseUrl) rfl (fun _ _ => rfl) fun _ _ _ => rfl
    case blockerLabel => exact hsetting (·.blockerLabel) rfl (fun _ _ => rfl) fun _ _ _ => rfl
    case squashLabel => exact hsetting (·.squashLabel) rfl (fun _ _ => rfl) fun _ _ _ => rfl
    case maxGoroutines => exact hsetting (·.maxGoroutines) rfl (fun _ _ => rfl) fun _ _ _ => rfl
  contexts := by
    let own := Recover.leaf d org repo
    -- the checks of a repository are its own, for the team has none
    have hpolicy : own.fragment.merger.bind (·.contextPolicy) =
        (d.jobs.keeper.contextOptions.repo? org repo).map RepoContexts.toRules := by
      refine (bind_merger_leaf rfl (fun _ _ => rfl) d own).trans ?_
      rw [bind_mergeRules? rfl]
      exact onto_none _
    change (own.fragment.merger.bind _).map _ = d.jobs.keeper.contextOptions.repo? org repo
    rw [hpolicy]
    cases d.jobs.keeper.contextOptions.repo? org repo with
    | none => rfl
    | some checks => exact congrArg some (RepoContexts.ofRules_toRules checks)
  protectTested := protectTested_leaf d org repo
  reportTemplate := reportTemplate?_leaf d org repo

/-- The injection takes nothing away from what a leaf repeats. -/
theorem Leaf.Repeats.onto_injection {j : JobDocument} {l : Leaf} (h : l.Repeats j)
    (b : Bootstrap) : ({ l with fragment := onto b.fragment l.fragment } : Leaf).Repeats j := by
  let top (f : Fragment) : Fragment := onto b.fragment f
  -- plugins and published files aside, the fragment is what it was
  have hothers : { top l.fragment with plugins := none, configUpdater := none } =
      { l.fragment with plugins := none, configUpdater := none } := (b.injected l.fragment).others
  have hpresubmits : (top l.fragment).presubmits = l.fragment.presubmits :=
    congrArg (·.presubmits) hothers
  have hpostsubmits : (top l.fragment).postsubmits = l.fragment.postsubmits :=
    congrArg (·.postsubmits) hothers
  have hperiodics : (top l.fragment).periodics = l.fragment.periodics :=
    congrArg (·.periodics) hothers
  have hmerger : (top l.fragment).merger = l.fragment.merger := congrArg (·.merger) hothers
  have hpolicy : (top l.fragment).policy = l.fragment.policy := congrArg (·.policy) hothers
  have hattachments : (top l.fragment).attachments = l.fragment.attachments :=
    congrArg (·.attachments) hothers
  constructor
  case presubmits =>
    change ((top l.fragment).presubmits.map _).getD [] = _
    rw [hpresubmits]
    exact h.presubmits
  case postsubmits =>
    change ((top l.fragment).postsubmits.map _).getD [] = _
    rw [hpostsubmits]
    exact h.postsubmits
  case periodics =>
    change ((top l.fragment).periodics.map _).getD [] = _
    rw [hperiodics]
    exact h.periodics
  case settings =>
    change { (top l.fragment).merger.getD {} with
      mergeMethod := none, queries := none, contextPolicy := none } = _
    rw [hmerger]
    exact h.settings
  case contexts =>
    change ((top l.fragment).merger.bind _).map _ = _
    rw [hmerger]
    exact h.contexts
  case protectTested =>
    change (top l.fragment).policy.bind _ = _
    rw [hpolicy]
    exact h.protectTested
  case reportTemplate =>
    change (itemsOf (top l.fragment).attachments).findSome? _ = _
    rw [hattachments]
    exact h.reportTemplate

/-! ### Their documents -/

section Documents

variable {j : JobDocument} (hnodup : (leaves.map Leaf.key).Nodup)

include hnodup

/-- Jobs under the keys of leaves are joined to the jobs of the document. -/
theorem joinedByKey_eq_filterMap {items : Leaf → List Job} {jobs : Keyed (List Job)}
    (hitems : ∀ l ∈ leaves, items l = (jobs.get? l.key).getD [])
    (hkeys : ∀ key ∈ jobs.keys, ∃ l ∈ leaves, l.key = key) :
    Compile.joinedByKey items leaves = jobs.filterMap nonEmpty := by
  refine Keyed.ext_get? fun key => ?_
  rw [get?_joinedByKey hnodup, Keyed.get?_filterMap]
  cases hitem : itemAt Leaf.key leaves key with
  | some l =>
    -- the leaf of the key repeats what the document has there
    obtain ⟨hl, rfl⟩ := itemAt_eq_some hitem
    rw [Option.bind_some, hitems l hl]
    cases jobs.get? l.key <;> rfl
  | none =>
    cases hget : jobs.get? key with
    | none => rfl
    | some found =>
      -- every key of the document is that of a leaf
      obtain ⟨l, hl, rfl⟩ := hkeys key (Keyed.mem_keys_iff.2 ⟨found, hget⟩)
      rw [itemAt_key hnodup hl] at hitem
      cases hitem

theorem repo?_contextTree_of_repeats (h : ∀ l ∈ leaves, l.Repeats j)
    (hplaces : ∀ org repo, (j.keeper.contextOptions.repo? org repo).isSome = true →
      ∃ l ∈ leaves, l.place = (org, repo)) (org repo : String) :
    (Compile.contextTree leaves).repo? org repo = j.keeper.contextOptions.repo? org repo := by
  rw [repo?_contextTree hnodup]
  cases hitem : itemAt Leaf.place leaves (org, repo) with
  | some l =>
    obtain ⟨hl, hplace⟩ := itemAt_eq_some hitem
    obtain ⟨rfl, rfl⟩ := Prod.mk.inj hplace
    exact (h l hl).contexts
  | none =>
    cases hfound : j.keeper.contextOptions.repo? org repo with
    | none => rfl
    | some checks =>
      -- every node of the document is that of a leaf
      obtain ⟨l, hl, hplace⟩ := hplaces org repo (by rw [hfound]; rfl)
      rw [← hplace, itemAt_key (nodup_place hnodup) hl] at hitem
      cases hitem

/-- **Leaves that repeat a job document are compiled to it.** It takes at least one leaf, and one
for each key and each node of the document. -/
theorem regenerated_of_repeats (hne : leaves ≠ []) (h : ∀ l ∈ leaves, l.Repeats j)
    (hpresubmits : ∀ key ∈ j.presubmits.keys, ∃ l ∈ leaves, l.key = key)
    (hpostsubmits : ∀ key ∈ j.postsubmits.keys, ∃ l ∈ leaves, l.key = key)
    (hplaces : ∀ org repo, (j.keeper.contextOptions.repo? org repo).isSome = true →
      ∃ l ∈ leaves, l.place = (org, repo)) :
    Regenerated j (documents leaves).jobs where
  presubmits := joinedByKey_eq_filterMap hnodup (fun l hl => (h l hl).presubmits) hpresubmits
  postsubmits := joinedByKey_eq_filterMap hnodup (fun l hl => (h l hl).postsubmits) hpostsubmits
  periodics := (periodics_of_forall hne fun l hl => (h l hl).periodics).trans
    (appendNew_onto_nil j.periodics)
  settings := by
    -- whichever leaf is the last, it sets what the document does
    have hsetting : ∀ {α : Type} (value : MergeRules → Option α), value {} = none →
        (∀ rules : MergeRules, value rules = value { rules with
          mergeMethod := none, queries := none, contextPolicy := none }) →
        Compile.queueSetting value leaves = value j.keeper.globalRules := by
      intro α value hvalue hglobal
      refine lastSet_of_forall hne fun l hl => ?_
      rw [← (h l hl).settings, ← hglobal]
      cases l.fragment.merger with
      | none => exact hvalue.symm
      | some rules => rfl
    ext1
    case mergeMethod => rfl
    case queries => rfl
    case contextPolicy => rfl
    case syncPeriod => exact hsetting (·.syncPeriod) rfl fun _ => rfl
    case statusUpdatePeriod => exact hsetting (·.statusUpdatePeriod) rfl fun _ => rfl
    case targetUrl => exact hsetting (·.targetUrl) rfl fun _ => rfl
    case prStatusBaseUrl => exact hsetting (·.prStatusBaseUrl) rfl fun _ => rfl
    case blockerLabel => exact hsetting (·.blockerLabel) rfl fun _ => rfl
    case squashLabel => exact hsetting (·.squashLabel) rfl fun _ => rfl
    case maxGoroutines => exact hsetting (·.maxGoroutines) rfl fun _ => rfl
  contexts := repo?_contextTree_of_repeats hnodup h hplaces
  protectTested := lastSet_of_forall hne fun l hl => (h l hl).protectTested
  reportTemplate := by
    obtain ⟨l, hl⟩ := List.exists_mem_of_ne_nil _ hne
    refine (get?_reportTemplates leaves).trans ?_
    exact findSome?_of_forall (fun l hl => Or.inl (h l hl).reportTemplate)
      ⟨l, hl, (h l hl).reportTemplate⟩

end Documents

/-! ### Generating once more -/

/-- The leaf of a recovered repository, with the injection on top for the boot repository. -/
def Resolver.recoveredLeaf (r : Resolver) (d : Documents) (s : SourceRepository) : Leaf :=
  let leaf := Recover.leaf d s.spec.org s.spec.repo
  if r.isBoot s then { leaf with fragment := onto r.injection leaf.fragment } else leaf

section Generated

variable {r : Recovered} (h : recover d = .ok r) {environment : Environment}
  (hdefault : environment.defaultScheduler? = some r.defaultScheduler) (bootstrap : Bootstrap)

include h hdefault in
/-- Every recovered repository has its leaf, whatever the environment besides. -/
theorem leaf?_eq_recoveredLeaf {s : SourceRepository} (hs : s ∈ r.repositories) :
    let resolver := Resolver.ofResources [] r.schedulerResources (some environment) bootstrap
    resolver.leaf? s = .ok (some (resolver.recoveredLeaf d s)) := by
  intro resolver
  have hcomplete := complete_of_recover h
  obtain ⟨name, hscopes⟩ := scopes_recovered hcomplete hs hdefault bootstrap
  have hfold := foldChain_scopes_recovered hcomplete hs hdefault bootstrap
  have hne : (resolver.scopes s).chain ≠ [] := by
    rw [hscopes]
    exact List.cons_ne_nil _ _
  unfold Resolver.recoveredLeaf
  dsimp only
  -- the chain is that of the scopes, with the injection on top or without
  cases hboot : resolver.isBoot s with
  | true =>
    have hchain : resolver.chain s ≠ [] := by
      rw [resolver.chain_eq, hboot, if_pos rfl,
        ChainBuilder.chain_withBootstrap (resolver.bootstrap_scopes s)]
      exact List.append_ne_nil_of_left_ne_nil hne _
    have hinjected : foldChain (resolver.chain s) =
        .ok (onto bootstrap.fragment (Recover.leaf d s.spec.org s.spec.repo).fragment) := by
      rw [Resolver.foldChain_of_isBoot hboot bootstrap.passive_fragment, hfold]
      rfl
    exact Resolver.leaf?_of_foldChain hchain hinjected
  | false =>
    have hchain : resolver.chain s = (resolver.scopes s).chain := by
      rw [resolver.chain_eq, hboot, if_neg Bool.false_ne_true]
    exact Resolver.leaf?_of_foldChain (hchain ▸ hne) (hchain ▸ hfold)

/-- The leaf repeats the document, with the injection or without. -/
theorem repeats_recoveredLeaf {resolver : Resolver}
    (hinjection : resolver.injection = bootstrap.fragment) (s : SourceRepository) :
    (resolver.recoveredLeaf d s).Repeats d.jobs := by
  have hleaf := repeats_leaf d s.spec.org s.spec.repo
  unfold Resolver.recoveredLeaf
  dsimp only
  split
  · rw [hinjection]
    exact hleaf.onto_injection bootstrap
  · exact hleaf

theorem place_recoveredLeaf (resolver : Resolver) (d : Documents) (s : SourceRepository) :
    (resolver.recoveredLeaf d s).place = (s.spec.org, s.spec.repo) := by
  unfold Resolver.recoveredLeaf
  dsimp only
  split <;> rfl

include h in
/-- A key of jobs is that of a recovered repository. -/
theorem exists_recovered_of_key {place : KeyedSection}
    (hplace : Mention.allowsOrg place = false) {key : String}
    (hm : Mention.entry place key ∈ d.mentions) :
    ∃ s ∈ r.repositories, SourceRepository.key s = key := by
  obtain ⟨found, hfound⟩ := exists_recover_iff.1 ⟨r, h⟩ _ hm
  have hsplit : ∃ pair, RepoKey.split? key = some pair ∧ found = some pair := by
    unfold Mention.repository? at hfound
    dsimp only at hfound
    -- the section takes no organisation for a key, so the key splits
    cases hsplit : RepoKey.split? key with
    | some pair =>
      rw [hsplit] at hfound
      exact ⟨pair, rfl, (Except.ok.inj hfound).symm⟩
    | none =>
      rw [hsplit, hplace] at hfound
      cases hfound
  obtain ⟨pair, hpair, rfl⟩ := hsplit
  obtain ⟨s, hs, rfl⟩ := exists_recovered_of_mention h hm hfound
  exact ⟨s, hs, RepoKey.join_of_split hpair⟩

include h in
/-- A node of status checks is that of a recovered repository. -/
theorem exists_recovered_of_checks {org repo : String}
    (hchecks : (d.jobs.keeper.contextOptions.repo? org repo).isSome = true) :
    ∃ s ∈ r.repositories, (s.spec.org, s.spec.repo) = (org, repo) := by
  have hm : Mention.node .contextOptions org repo ∈ d.mentions :=
    Documents.mem_mentions.2 ⟨.contextOptions, mem_nodes_iff.2 ⟨(org, repo), hchecks, rfl⟩⟩
  obtain ⟨found, hfound⟩ := exists_recover_iff.1 ⟨r, h⟩ _ hm
  have hpair : found = some (org, repo) := by
    unfold Mention.repository? at hfound
    dsimp only at hfound
    split at hfound
    · exact (Except.ok.inj hfound).symm
    · cases hfound
  exact exists_recovered_of_mention h hm (hpair ▸ hfound)

include h hdefault in
/-- **Documents kept by hand can be regenerated, and keep their jobs.** Take any two documents that
are accepted, with a repository in them and no repository whose organisation or name is blank. The
schedulers and repositories recovered from them have leaves, without groups and in any environment
with the recovered default scheduler; the leaves have documents; and of the job document nothing is
lost that belongs to jobs, to status checks or to the queue as a whole. -/
theorem exists_regenerated (hne : r.repositories ≠ [])
    (hnames : ∀ s ∈ r.repositories,
      Text.isBlank s.spec.org = false ∧ Text.isBlank s.spec.repo = false) :
    ∃ leaves d',
      generate r.repositories [] r.schedulerResources (some environment) bootstrap = .ok leaves ∧
      compile leaves = .ok d' ∧ Regenerated d.jobs d'.jobs := by
  let resolver := Resolver.ofResources [] r.schedulerResources (some environment) bootstrap
  let leafOf := resolver.recoveredLeaf d
  have hplace : ∀ s, (leafOf s).place = (s.spec.org, s.spec.repo) :=
    place_recoveredLeaf resolver d
  have hkey : ∀ s, (leafOf s).key = SourceRepository.key s := fun s =>
    congrArg (fun p : String × String => RepoKey.join p.1 p.2) (hplace s)
  have hgenerate : generate r.repositories [] r.schedulerResources (some environment) bootstrap =
      .ok (r.repositories.map leafOf) :=
    generate_of_recover h hne (fun s _ => hkey s) fun s hs =>
      leaf?_eq_recoveredLeaf h hdefault bootstrap hs
  have hcompile : compile (r.repositories.map leafOf) =
      .ok (documents (r.repositories.map leafOf)) := by
    refine compile_eq_ok fun l hl => ?_
    obtain ⟨s, hs, rfl⟩ := List.mem_map.1 hl
    obtain ⟨horg, hrepo⟩ := Prod.mk.inj (hplace s)
    rw [horg, hrepo]
    exact hnames s hs
  refine ⟨_, _, hgenerate, hcompile, ?_⟩
  -- there is one leaf for each key and each node that the document has
  have hnodup : ((r.repositories.map leafOf).map Leaf.key).Nodup := by
    rw [List.map_map]
    refine List.pairwise_map.2 ((ascending_recovered h).imp fun {s t} hlt heq => ?_)
    change (leafOf s).key = (leafOf t).key at heq
    rw [hkey, hkey] at heq
    rw [heq] at hlt
    exact String.lt_irrefl _ hlt
  have hrepeats : ∀ l ∈ r.repositories.map leafOf, l.Repeats d.jobs := by
    intro l hl
    obtain ⟨s, -, rfl⟩ := List.mem_map.1 hl
    exact repeats_recoveredLeaf bootstrap rfl s
  have hkeys : ∀ place, Mention.allowsOrg place = false → ∀ key,
      Mention.entry place key ∈ d.mentions → ∃ l ∈ r.repositories.map leafOf, l.key = key := by
    intro place hallows key hm
    obtain ⟨s, hs, rfl⟩ := exists_recovered_of_key h hallows hm
    exact ⟨leafOf s, List.mem_map_of_mem hs, hkey s⟩
  refine regenerated_of_repeats hnodup (fun hnil => hne (List.map_eq_nil_iff.1 hnil)) hrepeats
    (fun key hmem => hkeys .presubmits rfl key ?_) (fun key hmem => hkeys .postsubmits rfl key ?_)
    fun org repo hchecks => ?_
  · exact Documents.mem_mentions.2 ⟨.presubmits, List.mem_map_of_mem hmem⟩
  · exact Documents.mem_mentions.2 ⟨.postsubmits, List.mem_map_of_mem hmem⟩
  · obtain ⟨s, hs, heq⟩ := exists_recovered_of_checks h hchecks
    exact ⟨leafOf s, List.mem_map_of_mem hs, (hplace s).trans heq⟩

end Generated

namespace Handwritten

/-- Jobs that repeat their names, settings of an organisation and of everything, and two
repositories that come to one resource name. -/
def jobs : JobDocument := {
  presubmits := .ofList [
    ("acme/web-app", [{ name := "lint" }, { name := "lint", optional := some true }]),
    ("acme/web.app", [])]
  periodics := [{ name := "nightly" }, { name := "nightly", agent := some "jenkins" }]
  branchProtection := { policy := { protect := some true } }
  keeper := {
    mergeMethod := .ofList [("acme", "squash")]
    syncPeriod := some "1m"
    contextOptions := { orgs := .ofList [("acme", { repos := .ofList [("web.app", {})] })] } }
  plank := {
    reportTemplates := .ofList [("*", "https://example.com"), ("acme", "https://other")] } }

def kept : Documents := {
  jobs
  plugins := { plugins := .ofList [("acme", ["lgtm"]), ("acme/web.app", ["trigger"])] } }

/-- An environment whose source is one of the repositories. -/
def environment : Environment :=
  Environment.dev (some "https://example.com/acme/web-app.git") (some "default")

def found : Keyed (String × String) :=
  .ofList [("acme/web-app", "acme", "web-app"), ("acme/web.app", "acme", "web.app")]

theorem repositories_kept : kept.repositories = .ok found := rfl

theorem exists_regenerated_of_kept :
    ∃ r, recover kept = .ok r ∧ environment.defaultScheduler? = some r.defaultScheduler ∧
      r.repositories ≠ [] ∧
      (∀ s ∈ r.repositories,
        Text.isBlank s.spec.org = false ∧ Text.isBlank s.spec.repo = false) ∧
      ∃ leaves d', generate r.repositories [] r.schedulerResources (some environment) = .ok leaves ∧
        compile leaves = .ok d' ∧ Regenerated jobs d'.jobs := by
  obtain ⟨r, hr, hcomplete, hplaces⟩ := recover_eq_ok repositories_kept
  have hdefault : environment.defaultScheduler? = some r.defaultScheduler := by
    rw [hcomplete.default]
    decide
  have hne : r.repositories ≠ [] := by
    intro hnil
    rw [hnil] at hplaces
    cases hplaces
  have hnames : ∀ s ∈ r.repositories,
      Text.isBlank s.spec.org = false ∧ Text.isBlank s.spec.repo = false := by
    have hfound : ∀ p ∈ found.entries.map (·.2),
        Text.isBlank p.1 = false ∧ Text.isBlank p.2 = false := by decide
    intro s hs
    have hmem : (s.spec.org, s.spec.repo) ∈ found.entries.map (·.2) :=
      hplaces ▸ List.mem_map_of_mem hs
    exact hfound _ hmem
  exact ⟨r, hr, hdefault, hne, hnames, exists_regenerated hr hdefault {} hne hnames⟩

end Handwritten

end SchedulerPolicy
