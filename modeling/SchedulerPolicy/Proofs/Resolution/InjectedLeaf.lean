import SchedulerPolicy.Proofs.Resolution.Injection

/-!
# What the injection changes

The injection is the highest link of the boot repository's chain, so it is not put onto a finished
fragment: it seeds the loop, and every other link is filled into it. Still the leaf is what the
chain without the injection comes down to, with the injection laid over it at the end
(`Resolver.foldChain_of_isBoot`).

What carries this is one step. The injection is a `Passive` fragment: it has no jobs, and only jobs
can make filling in fail, and it has no merge-queue settings, and only queries are not laid over one
another in any grouping. So filling in a fragment that has the injection on top fails like filling
in the fragment alone, with the same finding, and otherwise leaves the injection on top
(`Fragment.Passive.fill_onto`). The step goes through the whole chain, through replacing lists and
groups in conflict alike, and no fragment of it needs to be canonical.
-/

namespace SchedulerPolicy

/-! ### A seed that stays on top -/

namespace Fragment

/-- A fragment with neither jobs nor merge-queue settings. -/
structure Passive (top : Fragment) : Prop where
  jobs : ∀ s : JobSection, s.jobs? top = none
  merger : top.merger = none

/-- Fragments are filled in section by section, and only the sections of jobs can fail. -/
theorem fill_eq_bind (own donor : Fragment) :
    fill own donor = (do
      let presubmits ← fillField "presubmits" own.presubmits donor.presubmits
      let postsubmits ← fillField "postsubmits" own.postsubmits donor.postsubmits
      let periodics ← fillField "periodics" own.periodics donor.periodics
      return { onto own donor with presubmits, postsubmits, periodics }) := by
  simp only [fill, fillField_eq]
  rfl

/-- **One step of the loop.** A passive fragment stays on top of what is filled in, and a failure is
the same with and without it. -/
theorem Passive.fill_onto {top : Fragment} (h : top.Passive) (own donor : Fragment) :
    fill (onto top own) donor = onto top <$> fill own donor := by
  -- the jobs are those of the fragment below, so the three sections are filled in alike
  have hjobs : ∀ s : JobSection, s.jobs? (onto top own) = s.jobs? own := by
    intro s
    rw [jobs?_onto, h.jobs, none_onto]
  have hpresubmits : (onto top own).presubmits = own.presubmits := hjobs .presubmits
  have hpostsubmits : (onto top own).postsubmits = own.postsubmits := hjobs .postsubmits
  have hperiodics : (onto top own).periodics = own.periodics := hjobs .periodics
  -- whatever the three come to, everything else is laid over in any grouping
  have hrest : ∀ presubmits postsubmits periodics : Option JobSet,
      { onto (onto top own) donor with presubmits, postsubmits, periodics } =
        onto top { onto own donor with presubmits, postsubmits, periodics } := by
    intro presubmits postsubmits periodics
    have hnone : ∀ (s : JobSection) (set : Option JobSet), onto (s.jobs? top) set = set := by
      intro s set
      rw [h.jobs, none_onto]
    ext1
    case presubmits => exact (hnone .presubmits presubmits).symm
    case postsubmits => exact (hnone .postsubmits postsubmits).symm
    case periodics => exact (hnone .periodics periodics).symm
    case merger =>
      change onto (onto top.merger own.merger) donor.merger =
        onto top.merger (onto own.merger donor.merger)
      rw [h.merger, none_onto, none_onto]
    all_goals exact onto_assoc ..
  rw [fill_eq_bind, fill_eq_bind, hpresubmits, hpostsubmits, hperiodics]
  simp only [hrest]
  cases fillField "presubmits" own.presubmits donor.presubmits with
  | error e => rfl
  | ok presubmits =>
    cases fillField "postsubmits" own.postsubmits donor.postsubmits with
    | error e => rfl
    | ok postsubmits => cases fillField "periodics" own.periodics donor.periodics <;> rfl

/-- The whole loop. -/
theorem Passive.build_concat {top : Fragment} (h : top.Passive) (lower : List Fragment) :
    build (lower ++ [top]) = onto top <$> build lower := by
  -- the loop starts from the seed on top of nothing, and each step commutes with what is on top
  have hloop : ∀ (donors : List Fragment) (own : Fragment),
      donors.foldlM fill (onto top own) = onto top <$> donors.foldlM fill own := by
    intro donors
    induction donors with
    | nil => intro own; rfl
    | cons donor donors ih =>
      intro own
      rw [List.foldlM_cons, List.foldlM_cons, h.fill_onto]
      cases fill own donor with
      | error e => rfl
      | ok filled => exact ih filled
  rw [build_eq_foldlM, build_eq_foldlM, List.reverse_append, List.reverse_singleton,
    List.singleton_append, List.foldlM_cons, empty_fill, ← hloop, onto_empty]
  rfl

end Fragment

/-! ### A link that stays on top -/

theorem fragments_append (chain chain' : List ChainLink) :
    fragments (chain ++ chain') = fragments chain ++ fragments chain' := List.map_append

/-- A link of another level goes on top of a chain whose groups stand next to each other. -/
theorem foldChain_concat {chain : List ChainLink} {link : ChainLink} (hgrouped : Grouped chain)
    (hlevel : link.level ≠ .group) (h : link.fragment.Passive) :
    foldChain (chain ++ [link]) = onto link.fragment <$> foldChain chain := by
  have hlink : ∀ l ∈ [link], l.level ≠ .group := List.forall_mem_singleton.2 hlevel
  have hfragments : ∀ lower : List ChainLink,
      fragments (lower ++ [link]) = fragments lower ++ [link.fragment] :=
    fun lower => fragments_append lower [link]
  obtain ⟨below, groups, above, rfl, hbelow, hgroups, habove⟩ := hgrouped
  by_cases hne : groups = []
  · -- without groups both chains are built as they are
    subst hne
    have hnone : ∀ l ∈ below ++ [] ++ above, l.level ≠ .group := by
      rw [List.append_nil]
      exact List.forall_mem_append.2 ⟨hbelow, habove⟩
    rw [foldChain_of_no_group hnone,
      foldChain_of_no_group (List.forall_mem_append.2 ⟨hnone, hlink⟩), hfragments, h.build_concat]
  · -- the groups come down to the same fragment, or fail the same way, in both chains
    rw [foldChain_of_groups hne hbelow hgroups habove, List.append_assoc,
      foldChain_of_groups hne hbelow hgroups (List.forall_mem_append.2 ⟨habove, hlink⟩), hfragments]
    cases Fragment.buildPeers (fragments groups) with
    | error e => rfl
    | ok peers =>
      change Fragment.build (fragments below ++ [peers] ++ (fragments above ++ [link.fragment])) =
        onto link.fragment <$> Fragment.build (fragments below ++ [peers] ++ fragments above)
      rw [← List.append_assoc, h.build_concat]

/-! ### Chains with and without the injection -/

theorem Bootstrap.passive_fragment (b : Bootstrap) : b.fragment.Passive where
  jobs s := by cases s <;> rfl
  merger := rfl

namespace ChainBuilder

variable {b : ChainBuilder}

theorem bootstrap_withGroup (group scheduler : String) :
    (b.withGroup group scheduler).bootstrap = b.bootstrap := by
  unfold withGroup
  split <;> rfl

theorem bootstrap_announceGroups (groups : List SourceRepositoryGroup) :
    (groups.foldl Resolver.announceGroup b).bootstrap = b.bootstrap := by
  induction groups generalizing b with
  | nil => rfl
  | cons group groups ih =>
    rw [List.foldl_cons, ih]
    unfold Resolver.announceGroup
    split
    · exact bootstrap_withGroup _ _
    · rfl

/-- The injection goes on top of a chain that has none. -/
theorem chain_withBootstrap (h : b.bootstrap = none) (f : Fragment) :
    (b.withBootstrap f).chain =
      b.chain ++ [{ level := .bootstrap, source := "bootstrap", fragment := f }] := by
  unfold chain withBootstrap
  rw [h]
  simp only [Option.toList_none, Option.toList_some, List.append_nil]

end ChainBuilder

namespace Resolver

variable {r : Resolver} {s : SourceRepository}

theorem bootstrap_scopes (r : Resolver) (s : SourceRepository) :
    (r.scopes s).bootstrap = none := by
  have hteam : ∀ (b : ChainBuilder) scheduler, (b.withTeam scheduler).bootstrap = b.bootstrap := by
    rintro b (_ | scheduler) <;> rfl
  have hown : ∀ (b : ChainBuilder) scheduler,
      (b.withRepository scheduler).bootstrap = b.bootstrap := by
    rintro b (_ | scheduler) <;> rfl
  unfold scopes
  dsimp only
  rw [hown, ChainBuilder.bootstrap_announceGroups, hteam]

/-- No scope is the injection. -/
theorem filter_chain_scopes (r : Resolver) (s : SourceRepository) :
    (r.scopes s).chain.filter (·.level != .bootstrap) = (r.scopes s).chain := by
  have hsorted := r.scopes_sorted (P := fun _ => True) (fun _ _ _ => trivial) s
  refine List.filter_eq_self.2 fun l hl => bne_iff_ne.2 ?_
  unfold ChainBuilder.chain at hl
  rw [r.bootstrap_scopes s, Option.toList_none, List.append_nil, List.mem_append,
    List.mem_append] at hl
  rcases hl with (hl | hl) | hl
  · rw [(hsorted.team l (Option.mem_toList.1 hl)).1]
    decide
  · rw [(hsorted.groups l hl).1]
    decide
  · rw [(hsorted.own l (Option.mem_toList.1 hl)).1]
    decide

/-- Without its injection, if it has one, the chain of a repository is that of its scopes. -/
theorem filter_chain (r : Resolver) (s : SourceRepository) :
    (r.chain s).filter (·.level != .bootstrap) = (r.scopes s).chain := by
  rw [chain_eq]
  split
  · rw [ChainBuilder.chain_withBootstrap (r.bootstrap_scopes s), List.filter_append,
      filter_chain_scopes]
    exact List.append_nil _
  · exact r.filter_chain_scopes s

/-- **The boot repository's chain comes down to what it does without the injection, with the
injection laid over it**, or fails in the same way. -/
theorem foldChain_of_isBoot (h : r.isBoot s = true) (hpassive : r.injection.Passive) :
    foldChain (r.chain s) = onto r.injection <$> foldChain (r.scopes s).chain := by
  have hsorted := r.scopes_sorted (P := fun _ => True) (fun _ _ _ => trivial) s
  rw [chain_eq, if_pos h, ChainBuilder.chain_withBootstrap (r.bootstrap_scopes s)]
  exact foldChain_concat hsorted.grouped nofun hpassive

/-- The leaf of a repository holds what its chain comes down to. -/
theorem foldChain_of_leaf? {own : Leaf} (h : r.leaf? s = .ok (some own)) :
    own.org = s.spec.org ∧ own.repo = s.spec.repo ∧ foldChain (r.chain s) = .ok own.fragment := by
  unfold leaf? at h
  split at h
  · cases Except.ok.inj h
  · split at h
    · next hfold =>
      obtain rfl := Option.some.inj (Except.ok.inj h)
      exact ⟨rfl, rfl, hfold⟩
    · cases h

/-- A repository has no leaf for an error exactly when its chain has one. -/
theorem leaf?_eq_error_iff {e : ResolveError} :
    r.leaf? s = .error e ↔
      ∃ cause, foldChain (r.chain s) = .error cause ∧
        e = .merge (SourceRepository.key s) cause := by
  unfold leaf?
  split
  · next hnil =>
    -- the empty chain comes down to the empty fragment
    rw [hnil]
    refine ⟨nofun, ?_⟩
    rintro ⟨cause, hcause, -⟩
    cases hcause
  · split
    · next hfold =>
      refine ⟨nofun, ?_⟩
      rintro ⟨cause, hcause, -⟩
      rw [hfold] at hcause
      cases hcause
    · next cause hfold =>
      constructor
      · intro he
        exact ⟨cause, hfold, (Except.error.inj he).symm⟩
      · rintro ⟨cause', hcause', rfl⟩
        rw [Except.error.inj (hfold.symm.trans hcause')]

end Resolver

/-! ### What is laid over -/

/-- A list that a single item is put in front of: the others follow in order, each once. -/
theorem appendMissing_singleton {α : Type} [BEq α] [LawfulBEq α] (x : α) (xs : List α) :
    appendMissing [x] xs = x :: (xs.filter (· != x)).eraseDups := by
  rw [appendMissing_eq_appendNew, appendNew_eq, List.singleton_append]
  congr 1
  change (xs.filter fun y => !([x].any (· == y))).eraseDups = _
  congr 1
  refine List.filter_congr fun y _ => ?_
  rw [List.any_cons, List.any_nil, Bool.or_false, bne, BEq.comm]

/-- What becomes of a fragment under the injection. The plugin that publishes files comes first, and
before the other plugins; the files of the bootstrap take the place of others under their paths;
and nothing else changes. -/
structure Injected (b : Bootstrap) (f own : Fragment) : Prop where
  plugins : own.plugins = some {
    items := configUpdaterPlugin :: (f.pluginNames.filter (· != configUpdaterPlugin)).eraseDups
    replace := (f.plugins.map (·.replace)).getD false }
  files : ∃ files, own.configUpdater = some { map := some files } ∧
    ∀ path, files.get? path =
      if path = b.pluginsPath then
        some { name := b.pluginsMap, namespaceName := b.namespaceName }
      else if path = b.configPath then
        some { name := b.configMap, namespaceName := b.namespaceName }
      else (f.configUpdater.bind (·.map)).bind (·.get? path)
  others : { own with plugins := none, configUpdater := none } =
    { f with plugins := none, configUpdater := none }

theorem Bootstrap.injected (b : Bootstrap) (f : Fragment) : Injected b f (onto b.fragment f) where
  plugins := by
    change onto (some { items := [configUpdaterPlugin] }) f.plugins = _
    unfold Fragment.pluginNames
    cases f.plugins with
    | none => rfl
    | some list =>
      -- the list of the injection does not replace, and takes over the flag
      rw [some_onto_some, replaceList_onto_of_not_replace (by exact rfl), appendMissing_singleton]
      rfl
  files := by
    have hfiles : ∃ files, onto (some { map := some b.published }) f.configUpdater =
          some { map := some files } ∧
        ∀ path, files.get? path =
          (b.published.get? path).or ((f.configUpdater.bind (·.map)).bind (·.get? path)) := by
      cases f.configUpdater with
      | none => exact ⟨b.published, rfl, fun path => (Option.or_none ..).symm⟩
      | some published =>
        obtain ⟨map⟩ := published
        cases map with
        | none => exact ⟨b.published, rfl, fun path => (Option.or_none ..).symm⟩
        | some files => exact ⟨onto b.published files, rfl, Keyed.get?_onto b.published files⟩
    obtain ⟨files, heq, hget⟩ := hfiles
    refine ⟨files, heq, fun path => ?_⟩
    rw [hget, b.get?_published]
    -- one case for each of the two paths, and one for all others
    split
    · rfl
    · split <;> rfl
  others := by
    ext1 <;> first | rfl | exact none_onto _

/-! ### Generating with and without the injection -/

/-- The environment without the URL of its source. -/
def Environment.withoutSource (e : Environment) : Environment :=
  { e with spec := { e.spec with source := {} } }

section Generated

variable {repositories : List SourceRepository} {groups : List SourceRepositoryGroup}
  {schedulers : List Scheduler} {environment : Option Environment} {bootstrap : Bootstrap}

/-- Leaves of repositories are not generated when one of the repositories has none for an error. -/
theorem generate_eq_error_iff (hne : repositories ≠ []) {e : ResolveError} :
    generate repositories groups schedulers environment bootstrap = .error e ↔
      repositories.mapM (Resolver.ofResources groups schedulers environment bootstrap).leaf? =
        .error e := by
  unfold generate
  rw [List.isEmpty_eq_false_iff.2 hne, if_neg Bool.false_ne_true]
  dsimp only
  cases repositories.mapM (Resolver.ofResources groups schedulers environment bootstrap).leaf? with
  | error e' =>
    change (Except.error e' : Except ResolveError (List Leaf)) = .error e ↔ _
    rw [Except.error.injEq, Except.error.injEq]
  | ok found => exact ⟨nofun, nofun⟩

/-- No repository is the boot repository of an environment without a source. -/
theorem chain_withoutSource (s : SourceRepository) :
    (Resolver.ofResources groups schedulers (environment.map Environment.withoutSource)
        bootstrap).chain s =
      ((Resolver.ofResources groups schedulers environment bootstrap).scopes s).chain := by
  cases environment <;> rfl

/-- A chain fails with its injection as it does without. -/
theorem foldChain_eq_error_iff (s : SourceRepository) {e : AmbiguousJob} :
    let r := Resolver.ofResources groups schedulers environment bootstrap
    foldChain (r.chain s) = .error e ↔ foldChain (r.scopes s).chain = .error e := by
  intro r
  cases hboot : r.isBoot s with
  | true =>
    rw [Resolver.foldChain_of_isBoot hboot bootstrap.passive_fragment]
    cases foldChain (r.scopes s).chain with
    | error e' => exact Iff.rfl
    | ok f => exact ⟨nofun, nofun⟩
  | false =>
    rw [r.chain_eq, hboot, if_neg Bool.false_ne_true]

/-- **Whether leaves are generated does not depend on the injection**, nor does the error. -/
theorem generate_withoutSource_eq_error_iff {e : ResolveError} :
    generate repositories groups schedulers environment bootstrap = .error e ↔
      generate repositories groups schedulers (environment.map Environment.withoutSource)
        bootstrap = .error e := by
  by_cases hne : repositories = []
  · rw [hne]
    exact Iff.rfl
  · rw [generate_eq_error_iff hne, generate_eq_error_iff hne]
    refine mapM_eq_error_congr (fun s _ e => ?_) e
    -- a leaf fails with its chain
    rw [Resolver.leaf?_eq_error_iff, Resolver.leaf?_eq_error_iff, chain_withoutSource]
    exact exists_congr fun cause => and_congr_left' (foldChain_eq_error_iff s)

/-- **The leaf of the boot repository is what its other scopes come down to, with the injection laid
over it.** Leaves are generated as without the injection, and fail alike. When they are generated,
the boot repository has one, and it is the fragment of the chain without the injection but for its
plugins and its published files (`Injected`). So no scheduler takes the plugin away that publishes
files, replacing lists or not. -/
theorem injected_of_isBoot {s : SourceRepository} (hs : s ∈ repositories)
    (hboot : (Resolver.ofResources groups schedulers environment bootstrap).isBoot s = true) :
    let resolver := Resolver.ofResources groups schedulers environment bootstrap
    let others := (resolver.chain s).filter (·.level != .bootstrap)
    (∀ e, foldChain (resolver.chain s) = .error e ↔ foldChain others = .error e) ∧
    (∀ e, generate repositories groups schedulers environment bootstrap = .error e ↔
      generate repositories groups schedulers (environment.map Environment.withoutSource)
        bootstrap = .error e) ∧
    ∀ leaves, generate repositories groups schedulers environment bootstrap = .ok leaves →
      ∃ own ∈ leaves, resolver.leaf? s = .ok (some own) ∧ own.org = s.spec.org ∧
        own.repo = s.spec.repo ∧ configUpdaterPlugin ∈ own.fragment.pluginNames ∧
        ∃ f, foldChain others = .ok f ∧ Injected bootstrap f own.fragment := by
  intro resolver others
  have hothers : others = (resolver.scopes s).chain := resolver.filter_chain s
  rw [hothers]
  refine ⟨fun e => foldChain_eq_error_iff s, fun e => generate_withoutSource_eq_error_iff,
    fun leaves hleaves => ?_⟩
  obtain ⟨leaf, hleaf, hmem⟩ := leaf?_of_generate hs hleaves
  obtain ⟨own, rfl, -⟩ := Resolver.leaf?_of_isBoot hboot hleaf
  obtain ⟨horg, hrepo, hfold⟩ := Resolver.foldChain_of_leaf? hleaf
  rw [Resolver.foldChain_of_isBoot hboot bootstrap.passive_fragment] at hfold
  cases hplain : foldChain (resolver.scopes s).chain with
  | error e =>
    rw [hplain] at hfold
    cases hfold
  | ok f =>
    rw [hplain] at hfold
    have hfragment : onto bootstrap.fragment f = own.fragment := Except.ok.inj hfold
    have hinjected : Injected bootstrap f own.fragment := hfragment ▸ bootstrap.injected f
    refine ⟨own, hmem own rfl, hleaf, horg, hrepo, ?_, f, rfl, hinjected⟩
    unfold Fragment.pluginNames
    rw [hinjected.plugins]
    exact List.mem_cons_self

end Generated

namespace Replaced

def team : Fragment := { plugins := some { items := ["approve"] } }

/-- A policy that cuts off what lies below it, and publishes a file of its own under a path of the
bootstrap. -/
def own : Fragment := {
  plugins := some { items := ["lgtm", "config-updater", "lgtm"], replace := true }
  configUpdater := some { map := some (.ofList [("config/config.yaml", { name := "other" })]) } }

def schedulers : List Scheduler := [.ofFragment "team" team, .ofFragment "own" own]

def environment : Option Environment :=
  some (Environment.dev (some "https://git.example.com/acme/environment.git") (some "team"))

def boot : SourceRepository := .ofParts "environment" "acme" "environment" (some "own")

def leaf : Leaf where
  org := "acme"
  repo := "environment"
  fragment := onto ({} : Bootstrap).fragment (onto own team)

theorem generate_boot : generate [boot] [] schedulers environment = .ok [leaf] := by
  have hleaf : [boot].mapM (Resolver.ofResources [] schedulers environment {}).leaf? =
      .ok ([leaf].map some) := rfl
  exact generate_of_mapM (List.cons_ne_nil _ _) hleaf (List.pairwise_singleton _ _)

theorem injected_of_boot :
    (boot ∈ [boot] ∧ (Resolver.ofResources [] schedulers environment {}).isBoot boot = true) ∧
      generate [boot] [] schedulers environment = .ok [leaf] ∧
      leaf.fragment.pluginNames = ["config-updater", "lgtm"] ∧
      ∃ f, foldChain (((Resolver.ofResources [] schedulers environment {}).chain boot).filter
          (·.level != .bootstrap)) = .ok f ∧ Injected {} f leaf.fragment := by
  have hboot : (Resolver.ofResources [] schedulers environment {}).isBoot boot = true := by decide
  have hmem : boot ∈ [boot] := List.mem_singleton_self boot
  obtain ⟨-, -, hleaves⟩ := injected_of_isBoot hmem hboot
  obtain ⟨own, hown, -, -, -, -, f, hf, hinjected⟩ := hleaves [leaf] generate_boot
  rw [List.mem_singleton.1 hown] at hinjected
  exact ⟨⟨hmem, hboot⟩, generate_boot, by decide, f, hf, hinjected⟩

end Replaced

end SchedulerPolicy
