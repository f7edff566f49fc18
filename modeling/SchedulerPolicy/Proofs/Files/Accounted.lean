import Mathlib
import SchedulerPolicy.Command.Compilation
import SchedulerPolicy.Proofs.Documents.Sections
import SchedulerPolicy.Proofs.Files.Loading
import SchedulerPolicy.Proofs.Files.Runs
import SchedulerPolicy.Proofs.Resolution.Order
import SchedulerPolicy.Proofs.Yaml.Words

/-!
# What a report accounts for

A report counts the repositories that were considered and those that had a leaf, and it lists the
keys of those that had none. The counts go by record: a repository has a leaf when it has a chain
(`Resolver.isSome_own?`). The list goes by key: a repository is listed when no leaf has its key. So
a record without a chain is in neither when another record of its key has one (`unlisted`).

The accounts are therefore short by the number of such records (`Report.Accounts`), and they are
complete exactly when, of the records of one key, all have a chain or none has one
(`accounts_of_generateFiles`).
-/

namespace SchedulerPolicy

open RunT

/-! ### Records and keys -/

section Records

variable (chain : SourceRepository → List ChainLink) (repositories : List SourceRepository)

/-- Whether a repository has a chain. -/
def applies (s : SourceRepository) : Bool := !(chain s).isEmpty

/-- Whether some repository of this key has a chain. -/
def keyApplies (key : String) : Bool :=
  repositories.any fun s => applies chain s && SourceRepository.key s == key

/-- Whether a repository without a chain has the key of one that has a chain. -/
def unlisted (s : SourceRepository) : Bool :=
  !applies chain s && keyApplies chain repositories (SourceRepository.key s)

variable {chain repositories}

theorem applies_eq_false_iff {s : SourceRepository} : applies chain s = false ↔ chain s = [] := by
  unfold applies
  rw [Bool.not_eq_false', List.isEmpty_iff]

theorem keyApplies_of_applies {s : SourceRepository} (hs : s ∈ repositories)
    (h : applies chain s = true) :
    keyApplies chain repositories (SourceRepository.key s) = true := by
  refine List.any_eq_true.2 ⟨s, hs, ?_⟩
  rw [h, beq_self_eq_true]
  rfl

/-- A repository has a chain, or it is listed, or it goes unlisted. -/
theorem length_eq_countP_add (chain : SourceRepository → List ChainLink)
    (repositories : List SourceRepository) :
    repositories.length = repositories.countP (applies chain) +
      (repositories.filter fun s =>
        !keyApplies chain repositories (SourceRepository.key s)).length +
      repositories.countP (unlisted chain repositories) := by
  let taken (s : SourceRepository) : Bool :=
    keyApplies chain repositories (SourceRepository.key s)
  -- what is listed has no chain: its own would be one under its key
  have hlisted : (repositories.filter fun s => !taken s).countP (fun s => !applies chain s) =
      (repositories.filter fun s => !taken s).length := by
    refine List.countP_eq_length.2 fun s hs => ?_
    obtain ⟨hmem, hfree⟩ := List.mem_filter.1 hs
    rw [Bool.not_eq_true'] at hfree ⊢
    refine Bool.eq_false_iff.2 fun happlies => ?_
    exact Bool.eq_false_iff.1 hfree (keyApplies_of_applies hmem happlies)
  have hrest : repositories.countP (fun s => !applies chain s) =
      repositories.countP (unlisted chain repositories) +
        (repositories.filter fun s => !taken s).length := by
    rw [List.countP_eq_countP_filter_add _ _ taken, List.countP_filter, hlisted]
    rfl
  have hall : repositories.length = repositories.countP (applies chain) +
      repositories.countP fun s => !applies chain s := by
    rw [List.length_eq_countP_add_countP (applies chain)]
    simp only [Bool.not_eq_true, Bool.decide_eq_false]
  rw [hall, hrest, Nat.add_comm (repositories.countP (unlisted _ _)), Nat.add_assoc]

/-- No record goes unlisted when, of the records of one key, all have a chain or none has one. -/
theorem countP_unlisted_eq_zero_iff :
    repositories.countP (unlisted chain repositories) = 0 ↔
      ∀ s ∈ repositories, chain s = [] →
        ∀ s' ∈ repositories, SourceRepository.key s' = SourceRepository.key s → chain s' = [] := by
  have hkey : ∀ key, keyApplies chain repositories key = false ↔
      ∀ s' ∈ repositories, SourceRepository.key s' = key → chain s' = [] := by
    intro key
    unfold keyApplies
    rw [List.any_eq_false]
    refine forall₂_congr fun s' _ => ?_
    rw [Bool.and_eq_true, beq_iff_eq, not_and', Bool.not_eq_true, applies_eq_false_iff]
  rw [List.countP_eq_zero]
  refine forall₂_congr fun s _ => ?_
  unfold unlisted
  rw [Bool.and_eq_true, Bool.not_eq_true', applies_eq_false_iff, not_and, Bool.not_eq_true, hkey]

end Records

/-! ### Leaves -/

section Leaves

variable {r : Resolver}

/-- A repository that nothing stands in the way of has a leaf when it has a chain. -/
theorem Resolver.isSome_own? {s : SourceRepository} (h : ∃ leaf, r.leaf? s = .ok leaf) :
    (r.own? s).isSome = applies r.chain s := by
  obtain ⟨leaf, hleaf⟩ := h
  have hown : r.own? s = leaf := by
    unfold own?
    rw [hleaf]
    rfl
  rw [hown]
  unfold applies
  unfold leaf? at hleaf
  -- without a chain there is no leaf, and with one only folding it could fail
  cases hchain : r.chain s with
  | nil =>
    rw [hchain] at hleaf
    obtain rfl := Except.ok.inj hleaf
    rfl
  | cons link links =>
    rw [hchain] at hleaf
    dsimp only at hleaf
    split at hleaf
    · obtain rfl := Except.ok.inj hleaf
      rfl
    · cases hleaf

variable {repositories : List SourceRepository} {groups : List SourceRepositoryGroup}
  {schedulers : List Scheduler} {environment : Option Environment} {bootstrap : Bootstrap}
  {leaves : List Leaf}

/-- There is a leaf for every record with a chain. -/
theorem length_of_generate
    (h : generate repositories groups schedulers environment bootstrap = .ok leaves) :
    leaves.length = repositories.countP
      (applies (Resolver.ofResources groups schedulers environment bootstrap).chain) := by
  obtain ⟨-, hleaf, rfl⟩ := (generate_eq_ok_iff rfl).1 h
  -- sorting keeps the number of leaves
  rw [List.length_mergeSort, List.length_filterMap_eq_countP]
  exact List.countP_congr fun s hs => by rw [Resolver.isSome_own? (hleaf s hs)]

/-- There is a leaf of a key when a record of that key has a chain. -/
theorem any_key_of_generate
    (h : generate repositories groups schedulers environment bootstrap = .ok leaves)
    (key : String) :
    leaves.any (·.key == key) = keyApplies
      (Resolver.ofResources groups schedulers environment bootstrap).chain repositories key := by
  obtain ⟨-, hleaf, rfl⟩ := (generate_eq_ok_iff rfl).1 h
  rw [(List.mergeSort_perm _ _).any_eq, Bool.eq_iff_iff]
  unfold keyApplies
  simp only [List.any_eq_true, List.mem_filterMap, beq_iff_eq, Bool.and_eq_true]
  -- a leaf has the key of its record, and only a record with a chain has a leaf
  constructor
  · rintro ⟨own, ⟨s, hs, hown⟩, rfl⟩
    refine ⟨s, hs, ?_, (Resolver.key_of_own? hown).symm⟩
    rw [← Resolver.isSome_own? (hleaf s hs), hown]
    rfl
  · rintro ⟨s, hs, happlies, rfl⟩
    rw [← Resolver.isSome_own? (hleaf s hs)] at happlies
    obtain ⟨own, hown⟩ := Option.isSome_iff_exists.1 happlies
    exact ⟨own, ⟨s, hs, hown⟩, Resolver.key_of_own? hown⟩

end Leaves

/-! ### Reports -/

/-- What a report says of repositories that have these chains. -/
structure Report.Accounts (report : Report) (repositories : List SourceRepository)
    (chain : SourceRepository → List ChainLink) : Prop where
  considered : report.repositories = repositories.length
  leaves : report.leaves = repositories.countP (applies chain)
  skipped : report.skipped =
    (repositories.filter fun s => !keyApplies chain repositories (SourceRepository.key s)).map
      SourceRepository.key
  /-- The accounts are short by the records that go unlisted. -/
  short : report.repositories = report.leaves + report.skipped.length +
    repositories.countP (unlisted chain repositories)

/-- A report that accounts for every repository. -/
structure Report.Complete (report : Report) (repositories : List SourceRepository)
    (chain : SourceRepository → List ChainLink) : Prop where
  balance : report.repositories = report.leaves + report.skipped.length
  skipped : report.skipped =
    (repositories.filter fun s => (chain s).isEmpty).map SourceRepository.key

theorem Report.Accounts.complete_iff {report : Report} {repositories : List SourceRepository}
    {chain : SourceRepository → List ChainLink} (h : report.Accounts repositories chain) :
    report.Complete repositories chain ↔
      repositories.countP (unlisted chain repositories) = 0 := by
  have hshort := h.short
  constructor
  · intro hcomplete
    have hbalance := hcomplete.balance
    omega
  · intro hzero
    refine ⟨by omega, ?_⟩
    rw [h.skipped]
    congr 1
    refine List.filter_congr fun s hs => ?_
    cases happlies : applies chain s with
    | true =>
      rw [keyApplies_of_applies hs happlies]
      unfold applies at happlies
      rw [Bool.not_eq_true'] at happlies
      rw [happlies]
      rfl
    | false =>
      -- a record without a chain is listed, so no other of its key has one
      have hlisted := List.countP_eq_zero.1 hzero s hs
      unfold unlisted at hlisted
      rw [happlies, Bool.not_false, Bool.true_and, Bool.not_eq_true] at hlisted
      rw [hlisted, applies_eq_false_iff.1 happlies]
      rfl

/-- The chains of repositories, as a compilation resolves them. -/
def EffectiveSettings.chain (e : EffectiveSettings) (r : ResourceSet) :
    SourceRepository → List ChainLink :=
  (Resolver.ofResources r.groups r.schedulers (r.teamEnvironment? e.settings.defaultScheduler)
    e.settings.bootstrap).chain

theorem Compilation.accounts_of_ofResources {e : EffectiveSettings} {r : ResourceSet}
    {c : Compilation} (h : ofResources e r = .ok c) :
    c.report.Accounts r.repositories (e.chain r) := by
  obtain ⟨leaves, hleaves, h⟩ := bind_eq_ok_iff.1 h
  obtain ⟨d, -, h⟩ := bind_eq_ok_iff.1 h
  rw [mapError_eq_ok_iff] at hleaves
  obtain rfl := Except.ok.inj h
  have hcount : leaves.length = r.repositories.countP (applies (e.chain r)) :=
    length_of_generate hleaves
  have hskipped : skipped r.repositories leaves =
      (r.repositories.filter fun s =>
        !keyApplies (e.chain r) r.repositories (SourceRepository.key s)).map
          SourceRepository.key := by
    unfold skipped
    rw [List.filter_map]
    simp only [any_key_of_generate hleaves]
    rfl
  exact {
    considered := rfl
    leaves := hcount
    skipped := hskipped
    short := by
      change r.repositories.length = leaves.length + (skipped r.repositories leaves).length + _
      rw [hcount, hskipped, List.length_map]
      exact length_eq_countP_add (e.chain r) r.repositories }

/-- A run of a compilation loads resources, compiles them and writes what comes of it. -/
theorem generateFiles_eq_ok_iff {e : EffectiveSettings} {t t' : FileTree} {report : Report} :
    (generateFiles e : RunT (StateM FileTree) Report).run.run t = (.ok report, t') ↔
      ∃ r c, resourcesIn e.settings.resourcesDir (t.find? e.settings.resourcesDir) = .ok r ∧
        Compilation.ofResources e r = .ok c ∧ report = c.report ∧
        (writeFiles (c.files e.settings.outputDir) : RunT (StateM FileTree) Unit).run.run t =
          (.ok (), t') := by
  unfold generateFiles
  rw [run_bind_eq_ok_iff, reads_loadResources _ t]
  constructor
  · -- up to the first write the tree is the one that the run began with
    rintro ⟨r, u, hload, h⟩
    obtain ⟨hr, rfl⟩ := Prod.mk.inj hload
    obtain ⟨c, u, hcompile, h⟩ := run_bind_eq_ok_iff.1 h
    obtain ⟨hc, rfl⟩ := Prod.mk.inj hcompile
    obtain ⟨⟨⟩, u, hwrite, h⟩ := run_bind_eq_ok_iff.1 h
    cases h
    exact ⟨r, c, hr, hc, rfl, hwrite⟩
  · rintro ⟨r, c, hr, hc, rfl, hwrite⟩
    refine ⟨r, t, Prod.ext hr rfl, run_bind_eq_ok_iff.2 ⟨c, t, Prod.ext hc rfl, ?_⟩⟩
    exact run_bind_eq_ok_iff.2 ⟨(), t', hwrite, rfl⟩

/-- **What the report of a compilation accounts for.** The leaves are the records with a chain. The
repositories that are listed as skipped are the records under whose key no record has a chain; they
stand in the order of the records, each as often as it occurs. What is missing are the records
without a chain beside one of their key that has a chain, and without such records every repository
is accounted for. -/
theorem accounts_of_generateFiles {e : EffectiveSettings} {t t' : FileTree} {report : Report}
    (h : (generateFiles e : RunT (StateM FileTree) Report).run.run t = (.ok report, t')) :
    ∃ r, resourcesIn e.settings.resourcesDir (t.find? e.settings.resourcesDir) = .ok r ∧
      report.Accounts r.repositories (e.chain r) ∧
      (report.Complete r.repositories (e.chain r) ↔
        ∀ s ∈ r.repositories, e.chain r s = [] → ∀ s' ∈ r.repositories,
          SourceRepository.key s' = SourceRepository.key s → e.chain r s' = []) := by
  obtain ⟨r, c, hr, hc, rfl, -⟩ := generateFiles_eq_ok_iff.1 h
  have haccounts := Compilation.accounts_of_ofResources hc
  refine ⟨r, hr, haccounts, ?_⟩
  rw [haccounts.complete_iff, countP_unlisted_eq_zero_iff]

/-! ### A repository with two records -/

namespace Twins

open Yaml (word wordMap)

def textDepot : String :=
  "apiVersion: v1\nkind: SourceRepository\nmetadata: \x7bname: depot\x7d\n" ++
    "spec: \x7borg: acme, repo: depot\x7d\n"

def textOwn : String :=
  "apiVersion: v1\nkind: Scheduler\nmetadata: \x7bname: own\x7d\nspec: \x7b\x7d\n"

def textShop : String :=
  "apiVersion: v1\nkind: SourceRepository\nmetadata: \x7bname: shop\x7d\n" ++
    "spec: \x7borg: acme, repo: shop, scheduler: \x7bname: own\x7d\x7d\n"

/-- A second record of the shop, without a scheduler. -/
def textTwin : String :=
  "apiVersion: v1\nkind: SourceRepository\nmetadata: \x7bname: twin\x7d\n" ++
    "spec: \x7borg: acme, repo: shop\x7d\n"

def folder : FileTree := .directory [
  ("depot.yaml", .file textDepot), ("own.yaml", .file textOwn), ("shop.yaml", .file textShop),
  ("twin.yaml", .file textTwin)]

def files : FileTree := .directory [("resources", folder)]

def settings : EffectiveSettings where
  settings := { resourcesDir := "resources" }
  sources := []

/-- The tree of a resource. -/
def tree (kind name : String) (spec : List (String × Yaml.Tree)) : Yaml.Tree := wordMap [
  ("apiVersion", word "v1"), ("kind", word kind), ("metadata", wordMap [("name", word name)]),
  ("spec", wordMap spec)]

def repository (name repo : String) (scheduler : Option Reference := none) : SourceRepository where
  apiVersion := "v1"
  kind := Kind.sourceRepository.name
  metadata := { name }
  spec := { org := "acme", repo, scheduler }

def own : Scheduler where
  apiVersion := "v1"
  kind := Kind.scheduler.name
  metadata := { name := "own" }
  spec := ∅

def resources : ResourceSet where
  schedulers := [own]
  repositories :=
    [repository "depot" "depot", repository "shop" "shop" (some { name := "own" }),
      repository "twin" "shop"]

set_option maxRecDepth 2000 in
theorem documents?_depot : Yaml.documents? textDepot =
    some [tree "SourceRepository" "depot" [("org", word "acme"), ("repo", word "depot")]] := by cbv

set_option maxRecDepth 2000 in
theorem documents?_own : Yaml.documents? textOwn = some [tree "Scheduler" "own" []] := by cbv

set_option maxRecDepth 2000 in
theorem documents?_shop : Yaml.documents? textShop =
    some [tree "SourceRepository" "shop" [("org", word "acme"), ("repo", word "shop"),
      ("scheduler", wordMap [("name", word "own")])]] := by cbv

set_option maxRecDepth 2000 in
theorem documents?_twin : Yaml.documents? textTwin =
    some [tree "SourceRepository" "twin" [("org", word "acme"), ("repo", word "shop")]] := by cbv

theorem ofTree_folder : ResourceSet.ofTree "resources" folder = .ok resources := by
  have hdepot : ResourceSet.inFile "resources/depot.yaml" (.text textDepot) =
      .ok [.repository (repository "depot" "depot")] :=
    ResourceSet.inFile_of_document (Yaml.values?_of_tree documents?_depot rfl) rfl _
  have hown : ResourceSet.inFile "resources/own.yaml" (.text textOwn) = .ok [.scheduler own] :=
    ResourceSet.inFile_of_document (Yaml.values?_of_tree documents?_own rfl) rfl _
  have hshop : ResourceSet.inFile "resources/shop.yaml" (.text textShop) =
      .ok [.repository (repository "shop" "shop" (some { name := "own" }))] :=
    ResourceSet.inFile_of_document (Yaml.values?_of_tree documents?_shop rfl) rfl _
  have htwin : ResourceSet.inFile "resources/twin.yaml" (.text textTwin) =
      .ok [.repository (repository "twin" "shop")] :=
    ResourceSet.inFile_of_document (Yaml.values?_of_tree documents?_twin rfl) rfl _
  have hfiles : List.Forall₂ (fun f x => ResourceSet.inFile f.1 f.2 = .ok [x])
      (folder.yamlFiles "resources")
      [.repository (repository "depot" "depot"), .scheduler own,
        .repository (repository "shop" "shop" (some { name := "own" })),
        .repository (repository "twin" "shop")] :=
    .cons hdepot (.cons hown (.cons hshop (.cons htwin .nil)))
  refine (ResourceSet.ofFiles_of_inFile hfiles).trans (congrArg Except.ok ?_)
  exact ResourceSet.ofList_of_ascending (by decide) (by decide) (by decide) (by decide)

/-- The leaf of the shop, the only one. -/
def leaf : Leaf := { org := "acme", repo := "shop", fragment := ∅ }

theorem generate_resources :
    generate resources.repositories resources.groups resources.schedulers none = .ok [leaf] := by
  refine (generate_eq_ok_iff rfl).2 ⟨List.cons_ne_nil _ _, ?_, ?_⟩
  · simp only [resources, List.forall_mem_cons]
    exact ⟨⟨none, rfl⟩, ⟨some leaf, rfl⟩, ⟨none, rfl⟩, List.forall_mem_nil _⟩
  · exact (List.mergeSort_singleton leaf).symm

/-- Two of the three records are counted as leaf or as skipped. -/
theorem exists_compilation : ∃ c jobs plugins report,
    Compilation.ofResources settings resources = .ok c ∧
    c.report.repositories = 3 ∧ c.report.leaves = 1 ∧ c.report.skipped = ["acme/depot"] ∧
    c.files "config" = [("config/config.yaml", jobs), ("config/plugins.yaml", plugins),
      ("config/compile_report.json", report)] := by
  have hleaves : (generate resources.repositories resources.groups resources.schedulers
      (resources.teamEnvironment? none) {}).mapError RunError.resolve = .ok [leaf] := by
    rw [mapError_eq_ok_iff]
    exact generate_resources
  have hcompile : (compile [leaf]).mapError RunError.compile = .ok (documents [leaf]) := by
    rw [mapError_eq_ok_iff]
    exact compile_eq_ok (by decide)
  refine ⟨_, _, _, _, bind_eq_of_ok hleaves (bind_eq_of_ok hcompile rfl), rfl, rfl, ?_, rfl⟩
  decide

theorem exists_run_writeFiles (jobs plugins report : String) : ∃ t',
    (writeFiles [("config/config.yaml", jobs), ("config/plugins.yaml", plugins),
      ("config/compile_report.json", report)] : RunT (StateM FileTree) Unit).run.run files =
        (.ok (), t') := by
  -- the tree after each of the writes
  have hjobs : files.write? "config/config.yaml" jobs = some (.directory [
      ("config", .directory [("config.yaml", .file jobs)]), ("resources", folder)]) := rfl
  have hplugins : FileTree.write? (.directory [
        ("config", .directory [("config.yaml", .file jobs)]), ("resources", folder)])
      "config/plugins.yaml" plugins = some (.directory [
        ("config", .directory [("config.yaml", .file jobs), ("plugins.yaml", .file plugins)]),
        ("resources", folder)]) := rfl
  have hreport : FileTree.write? (.directory [
        ("config", .directory [("config.yaml", .file jobs), ("plugins.yaml", .file plugins)]),
        ("resources", folder)])
      "config/compile_report.json" report = some (.directory [
        ("config", .directory [("compile_report.json", .file report),
          ("config.yaml", .file jobs), ("plugins.yaml", .file plugins)]),
        ("resources", folder)]) := rfl
  exact ⟨_, (run_bind_of_ok (run_writeFile hjobs)).trans
    ((run_bind_of_ok (run_writeFile hplugins)).trans
      ((run_bind_of_ok (run_writeFile hreport)).trans rfl))⟩

theorem resourcesIn_files : resourcesIn "resources" (files.find? "resources") = .ok resources :=
  resourcesIn_of_ofTree rfl ofTree_folder

theorem exists_run_files : ∃ report t',
    (generateFiles settings : RunT (StateM FileTree) Report).run.run files = (.ok report, t') ∧
    report.repositories = 3 ∧ report.leaves = 1 ∧ report.skipped = ["acme/depot"] := by
  obtain ⟨c, jobs, plugins, report, hc, hrepositories, hleaves, hskipped, hfiles⟩ :=
    exists_compilation
  obtain ⟨t', hwrite⟩ := exists_run_writeFiles jobs plugins report
  refine ⟨c.report, t', generateFiles_eq_ok_iff.2
    ⟨resources, c, resourcesIn_files, hc, rfl, ?_⟩, hrepositories, hleaves, hskipped⟩
  rw [← hfiles] at hwrite
  exact hwrite

/-- One leaf and one key do not account for three records. -/
theorem not_complete {report : Report} {repositories : List SourceRepository}
    {chain : SourceRepository → List ChainLink} (hrepositories : report.repositories = 3)
    (hleaves : report.leaves = 1) (hskipped : report.skipped = ["acme/depot"]) :
    ¬report.Complete repositories chain := by
  intro hcomplete
  have hbalance := hcomplete.balance
  rw [hrepositories, hleaves, hskipped] at hbalance
  cases hbalance

/-- The second record of the shop is what the accounts are short by. -/
theorem accounts_of_run_files : ∃ report t' r,
    (generateFiles settings : RunT (StateM FileTree) Report).run.run files = (.ok report, t') ∧
    report.repositories = 3 ∧ report.leaves = 1 ∧ report.skipped = ["acme/depot"] ∧
    resourcesIn "resources" (files.find? "resources") = .ok r ∧
    report.Accounts r.repositories (settings.chain r) ∧
    ¬report.Complete r.repositories (settings.chain r) := by
  obtain ⟨report, t', hrun, hrepositories, hleaves, hskipped⟩ := exists_run_files
  obtain ⟨r, hr, haccounts, -⟩ := accounts_of_generateFiles hrun
  exact ⟨report, t', r, hrun, hrepositories, hleaves, hskipped, hr, haccounts,
    not_complete hrepositories hleaves hskipped⟩

/-- A report does not account for every repository. -/
theorem not_complete_of_generateFiles :
    ¬∀ (e : EffectiveSettings) (t t' : FileTree) (report : Report) (r : ResourceSet),
      (generateFiles e : RunT (StateM FileTree) Report).run.run t = (.ok report, t') →
      resourcesIn e.settings.resourcesDir (t.find? e.settings.resourcesDir) = .ok r →
      report.Complete r.repositories (e.chain r) := by
  intro h
  obtain ⟨report, t', hrun, hrepositories, hleaves, hskipped⟩ := exists_run_files
  exact not_complete hrepositories hleaves hskipped
    (h settings files t' report resources hrun resourcesIn_files)

end Twins

end SchedulerPolicy
