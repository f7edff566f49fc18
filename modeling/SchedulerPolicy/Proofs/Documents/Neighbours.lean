import SchedulerPolicy.Proofs.Documents.Recovery

/-!
# What an entry under a key reaches

Plugins, external plugins and merge methods stand under keys, and `recover` reads such a map twice
for a repository: under the key of the repository and under its organisation. So an entry decides
nothing for a repository with another key and another organisation. Two pairs of documents that
differ in the entries of one key give such a repository the same policy (`policy?_eq_of_agreeBut`).

The second look-up does not ask whether the organisation is one. An organisation may be nested, and
then it can be spelled like the key of a repository, whose entries go to the repositories below it
as well (`Nesting.reaches_below`).
-/

namespace SchedulerPolicy

variable {d d' : Documents} {k key org repo : String}

/-- Documents without the three maps that are read under organisations. -/
def Documents.rest (d : Documents) : Documents where
  jobs := { d.jobs with keeper := { d.jobs.keeper with mergeMethod := ∅ } }
  plugins := { d.plugins with plugins := ∅, externalPlugins := ∅ }

/-- Documents that differ at most in what the three maps hold under one key. -/
structure AgreeBut (k : String) (d d' : Documents) : Prop where
  plugins : ∀ key, key ≠ k → d.plugins.plugins.get? key = d'.plugins.plugins.get? key
  externalPlugins : ∀ key, key ≠ k →
    d.plugins.externalPlugins.get? key = d'.plugins.externalPlugins.get? key
  mergeMethod : ∀ key, key ≠ k →
    d.jobs.keeper.mergeMethod.get? key = d'.jobs.keeper.mergeMethod.get? key
  rest : d.rest = d'.rest

/-- The policy of a recovered repository, held by the scheduler that it refers to. -/
def Recovered.policy? (r : Recovered) (s : SourceRepository) : Option Fragment :=
  (SourceRepository.scheduler? s).bind r.schedulers.get?

/-! ### The policy of one repository -/

theorem withOrgEntries_congr {α : Type} [BEq α] {m m' : Keyed (List α)}
    (h : ∀ key, key ≠ k → m.get? key = m'.get? key) (hkey : key ≠ k) (horg : org ≠ k) :
    Recover.withOrgEntries m key org = Recover.withOrgEntries m' key org := by
  unfold Recover.withOrgEntries
  rw [h key hkey, h org horg]

theorem AgreeBut.mergeRules?_eq (h : AgreeBut k d d') (hkey : key ≠ k) (horg : org ≠ k) :
    Recover.mergeRules? d.jobs.keeper key org repo =
      Recover.mergeRules? d'.jobs.keeper key org repo := by
  have hqueries : d.jobs.keeper.queries = d'.jobs.keeper.queries :=
    congrArg (·.jobs.keeper.queries) h.rest
  have hcontexts : d.jobs.keeper.contextOptions = d'.jobs.keeper.contextOptions :=
    congrArg (·.jobs.keeper.contextOptions) h.rest
  unfold Recover.mergeRules?
  -- the merge method is looked up under the key and the organisation, the rest is in common
  rw [h.mergeMethod key hkey, h.mergeMethod org horg, hqueries, hcontexts]

theorem AgreeBut.repositoryFragment_eq (h : AgreeBut k d d') (hkey : key ≠ k) (horg : org ≠ k) :
    Recover.repositoryFragment d key org repo = Recover.repositoryFragment d' key org repo := by
  -- what is read of the maps
  have hplugins := withOrgEntries_congr h.plugins hkey horg
  have hexternal := withOrgEntries_congr h.externalPlugins hkey horg
  have hmerger : Recover.mergeRules? d.jobs.keeper key org repo =
      Recover.mergeRules? d'.jobs.keeper key org repo := h.mergeRules?_eq hkey horg
  -- what is read besides
  have hpresubmits : d.jobs.presubmits = d'.jobs.presubmits :=
    congrArg (·.jobs.presubmits) h.rest
  have hpostsubmits : d.jobs.postsubmits = d'.jobs.postsubmits :=
    congrArg (·.jobs.postsubmits) h.rest
  have hprotection : d.jobs.branchProtection = d'.jobs.branchProtection :=
    congrArg (·.jobs.branchProtection) h.rest
  have happrove : d.plugins.approve = d'.plugins.approve := congrArg (·.plugins.approve) h.rest
  have hlgtm : d.plugins.lgtm = d'.plugins.lgtm := congrArg (·.plugins.lgtm) h.rest
  have htriggers : d.plugins.triggers = d'.plugins.triggers := congrArg (·.plugins.triggers) h.rest
  have hwelcome : d.plugins.welcome = d'.plugins.welcome := congrArg (·.plugins.welcome) h.rest
  have hfiles : d.plugins.configUpdater = d'.plugins.configUpdater :=
    congrArg (·.plugins.configUpdater) h.rest
  unfold Recover.repositoryFragment
  rw [hplugins, hexternal, hmerger, hpresubmits, hpostsubmits, hprotection, happrove, hlgtm,
    htriggers, hwelcome, hfiles]

/-! ### All repositories -/

theorem Recovered.Complete.policy?_eq {r : Recovered} (h : r.Complete d) {s : SourceRepository}
    (hs : s ∈ r.repositories) :
    r.policy? s =
      some (Recover.repositoryFragment d (SourceRepository.key s) s.spec.org s.spec.repo) := by
  obtain ⟨name, hname, hpolicy⟩ := h.own s hs
  unfold Recovered.policy?
  rw [hname, Option.bind_some, hpolicy]

/-- **An entry reaches the repository of its key and the repositories of an organisation of that
name, and no other.** Documents that agree but for the entries of `k` give every other repository
one and the same policy. -/
theorem policy?_eq_of_agreeBut {r r' : Recovered} (h : AgreeBut k d d') (hr : recover d = .ok r)
    (hr' : recover d' = .ok r') :
    ∀ s ∈ r.repositories, ∀ s' ∈ r'.repositories,
      s.spec.org = s'.spec.org → s.spec.repo = s'.spec.repo →
      SourceRepository.key s ≠ k → s.spec.org ≠ k →
      ∃ policy, r.policy? s = some policy ∧ r'.policy? s' = some policy := by
  intro s hs s' hs' horg hrepo hkey hother
  have hkeys : SourceRepository.key s' = SourceRepository.key s := by
    unfold SourceRepository.key
    rw [horg, hrepo]
  refine ⟨_, (complete_of_recover hr).policy?_eq hs, ?_⟩
  rw [(complete_of_recover hr').policy?_eq hs', hkeys, ← horg, ← hrepo,
    h.repositoryFragment_eq hkey hother]

namespace Nesting

/-- Two repositories of an organisation, and one of an organisation below with the name of the
second. -/
def jobs : JobDocument := {
  presubmits := .ofList [
    ("group/shop", [{ name := "lint" }]),
    ("group/sub", [{ name := "lint" }]),
    ("group/sub/app", [{ name := "build" }])] }

def plain : Documents := { jobs }

/-- The second repository has a plugin. -/
def tagged : Documents := {
  jobs
  plugins := { plugins := .ofList [("group/sub", ["lgtm"])] } }

def shop : SourceRepository := .ofParts "group-shop" "group" "shop" (some "group-shop")

def app : SourceRepository := .ofParts "group-sub-app" "group/sub" "app" (some "group-sub-app")

/-- What is recovered when the second and the third repository have these plugins. -/
def recovered (plugins : Option (ReplaceList String)) : Recovered where
  schedulers := .ofList [
    (defaultSchedulerName, Recover.teamFragment jobs),
    ("group-shop", { presubmits := some { items := [{ name := "lint" }] } }),
    ("group-sub", { presubmits := some { items := [{ name := "lint" }] }, plugins }),
    ("group-sub-app", { presubmits := some { items := [{ name := "build" }] }, plugins })]
  repositories := [shop, .ofParts "group-sub" "group" "sub" (some "group-sub"), app]
  defaultScheduler := defaultSchedulerName

theorem recover_plain : recover plain = .ok (recovered none) := rfl

theorem recover_tagged : recover tagged = .ok (recovered (some { items := ["lgtm"] })) := rfl

theorem agreeBut : AgreeBut "group/sub" plain tagged where
  plugins key hkey := by
    change _ = (Keyed.insert ∅ "group/sub" ["lgtm"]).get? key
    rw [Keyed.get?_insert, if_neg hkey]
    rfl
  externalPlugins _ _ := rfl
  mergeMethod _ _ := rfl
  rest := rfl

theorem policy?_eq_of_shop :
    AgreeBut "group/sub" plain tagged ∧ SourceRepository.key shop ≠ "group/sub" ∧
      shop.spec.org ≠ "group/sub" ∧
      ∃ r r', recover plain = .ok r ∧ recover tagged = .ok r' ∧
        shop ∈ r.repositories ∧ shop ∈ r'.repositories ∧
        ∃ policy, r.policy? shop = some policy ∧ r'.policy? shop = some policy := by
  have hkey : SourceRepository.key shop ≠ "group/sub" := by decide
  have horg : shop.spec.org ≠ "group/sub" := by decide
  exact ⟨agreeBut, hkey, horg, _, _, recover_plain, recover_tagged, List.mem_cons_self,
    List.mem_cons_self, policy?_eq_of_agreeBut agreeBut recover_plain recover_tagged shop
      List.mem_cons_self shop List.mem_cons_self rfl rfl hkey horg⟩

/-- **An entry of a repository reaches another one.** The plugin of `group/sub` goes to the
repository of the organisation that is spelled the same. -/
theorem reaches_below :
    AgreeBut "group/sub" plain tagged ∧ RepoKey.split? "group/sub" = some ("group", "sub") ∧
      ∃ r r', recover plain = .ok r ∧ recover tagged = .ok r' ∧
        r.repositories = r'.repositories ∧ app ∈ r.repositories ∧
        SourceRepository.key app ≠ "group/sub" ∧ r.policy? app ≠ r'.policy? app := by
  refine ⟨agreeBut, by decide, _, _, recover_plain, recover_tagged, rfl, ?_, by decide, ?_⟩
  · exact List.mem_cons_of_mem _ (List.mem_cons_of_mem _ List.mem_cons_self)
  · intro h
    have hplugins : (none : Option (ReplaceList String)) = some { items := ["lgtm"] } :=
      congrArg (fun policy => policy.bind (·.plugins)) h
    cases hplugins

end Nesting

end SchedulerPolicy
