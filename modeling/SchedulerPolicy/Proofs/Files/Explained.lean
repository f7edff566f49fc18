import Mathlib
import SchedulerPolicy.Command.Explanation
import SchedulerPolicy.Proofs.Files.Accounted

/-!
# Explanations and what is generated

An explanation resolves one repository, which it looks for without regard to the case of letters; a
compilation resolves all repositories, and one of them can fail the whole. Both load the same
resources and resolve against the same resolver (`Settings.resolver`), so they agree on a repository
that no other record can be taken for (`Alone`): its leaf among all the leaves is the one that is
explained, its chain says whether it has a leaf and whether it is the boot repository
(`Explanation.Agrees`), and what keeps it from being explained keeps the directory from being
compiled (`explained_as_generated`).
-/

namespace SchedulerPolicy

open RunT

/-! ### Finding a repository -/

/-- The comparison by which repositories are found is equality of the texts in small letters. -/
theorem Text.eqIgnoringAsciiCase_iff {a b : String} :
    eqIgnoringAsciiCase a b = true ↔
      a.toList.map Char.toLower = b.toList.map Char.toLower := by
  unfold eqIgnoringAsciiCase
  rw [beq_iff_eq]

/-- A repository is one of some records, and no other record has its key, whatever the case of
letters. -/
def Alone (repositories : List SourceRepository) (s : SourceRepository) : Prop :=
  ∃ before after, repositories = before ++ s :: after ∧ ∀ other ∈ before ++ after,
    Text.eqIgnoringAsciiCase (SourceRepository.key other) (SourceRepository.key s) = false

namespace Alone

variable {repositories : List SourceRepository} {s : SourceRepository}

theorem mem (h : Alone repositories s) : s ∈ repositories := by
  obtain ⟨before, after, rfl, -⟩ := h
  exact List.mem_append_right _ List.mem_cons_self

/-- It is found under every spelling of its key. -/
theorem find? (h : Alone repositories s) {key : String}
    (hkey : Text.eqIgnoringAsciiCase (SourceRepository.key s) key = true) :
    repositories.find? (fun other =>
      Text.eqIgnoringAsciiCase (SourceRepository.key other) key) = some s := by
  obtain ⟨before, after, rfl, hother⟩ := h
  refine List.find?_eq_some_iff_append.2 ⟨hkey, before, after, rfl, fun other hmem => ?_⟩
  -- another record under this spelling would have the key of the repository itself
  rw [Bool.not_eq_true', Bool.eq_false_iff]
  intro hfound
  have hsame := (Text.eqIgnoringAsciiCase_iff.1 hfound).trans
    (Text.eqIgnoringAsciiCase_iff.1 hkey).symm
  have hne := hother other (List.mem_append_left _ hmem)
  rw [Text.eqIgnoringAsciiCase_iff.2 hsame] at hne
  cases hne

/-- It is the only record of its key. -/
theorem eq_of_key (h : Alone repositories s) {other : SourceRepository}
    (hmem : other ∈ repositories) (hkey : SourceRepository.key other = SourceRepository.key s) :
    other = s := by
  obtain ⟨before, after, rfl, hother⟩ := h
  rcases List.mem_cons.1 (List.perm_middle.mem_iff.1 hmem) with rfl | hrest
  · rfl
  · -- any other record has another key
    have hne := hother other hrest
    rw [hkey, Text.eqIgnoringAsciiCase_iff.2 rfl] at hne
    cases hne

end Alone

/-! ### One repository and all of them -/

/-- A repository is the boot repository when its chain ends in the injection. -/
theorem Resolver.isBoot_iff (r : Resolver) (s : SourceRepository) :
    r.isBoot s = true ↔ ∃ l, (r.chain s).getLast? = some l ∧ l.level = .bootstrap := by
  rw [chain_eq]
  cases r.isBoot s with
  | true =>
    -- the injection is on top
    rw [if_pos rfl, ChainBuilder.chain_withBootstrap (r.bootstrap_scopes s),
      List.getLast?_concat]
    exact ⟨fun _ => ⟨_, rfl, rfl⟩, fun _ => rfl⟩
  | false =>
    rw [if_neg Bool.false_ne_true]
    refine ⟨nofun, ?_⟩
    -- no scope is the injection
    rintro ⟨l, hlast, hlevel⟩
    have hmem := List.mem_of_getLast? hlast
    rw [← r.filter_chain_scopes s] at hmem
    exact absurd hlevel (bne_iff_ne.1 (List.mem_filter.1 hmem).2)

theorem Resolver.own?_of_leaf? {r : Resolver} {s : SourceRepository} {leaf : Option Leaf}
    (h : r.leaf? s = .ok leaf) : r.own? s = leaf := by
  unfold own?
  rw [h]
  rfl

/-- A repository that nothing stands in the way of has no leaf when it has no chain. -/
theorem Resolver.chain_eq_nil_iff {r : Resolver} {s : SourceRepository}
    (h : ∃ leaf, r.leaf? s = .ok leaf) : r.chain s = [] ↔ r.own? s = none := by
  rw [← applies_eq_false_iff, ← isSome_own? h, Option.isSome_eq_false_iff,
    Option.isNone_iff_eq_none]

/-- What the repositories among some resources are resolved against. -/
def Settings.resolver (settings : Settings) (r : ResourceSet) : Resolver :=
  Resolver.ofResources r.groups r.schedulers (r.teamEnvironment? settings.defaultScheduler)
    settings.bootstrap

/-- The leaves of all repositories among some resources. -/
def Settings.leaves (settings : Settings) (r : ResourceSet) : Except ResolveError (List Leaf) :=
  generate r.repositories r.groups r.schedulers (r.teamEnvironment? settings.defaultScheduler)
    settings.bootstrap

/-- What an explanation says of a repository, beside the leaves of all repositories. -/
structure Explanation.Agrees (x : Explanation) (s : SourceRepository) (leaves : List Leaf) :
    Prop where
  repository : x.repository = SourceRepository.key s
  /-- The chain is empty when the repository has no leaf. -/
  chain : x.chain = [] ↔ ∀ leaf ∈ leaves, leaf.key ≠ SourceRepository.key s
  /-- The leaf of the repository holds the effective fragment. -/
  effective : ∀ leaf ∈ leaves, leaf.key = SourceRepository.key s →
    leaf = { org := s.spec.org, repo := s.spec.repo, fragment := x.effective }
  /-- Without a leaf the effective fragment is empty. -/
  nothing : x.chain = [] → x.effective = ∅
  boot : x.isBoot = true ↔ ∃ l, x.chain.getLast? = some l ∧ l.level = .bootstrap

section Resources

variable {settings : Settings} {r : ResourceSet} {s : SourceRepository} {key : String}
  {leaves : List Leaf}

theorem leaves_eq_ok_iff :
    settings.leaves r = .ok leaves ↔
      r.repositories ≠ [] ∧
        (∀ s ∈ r.repositories, ∃ leaf, (settings.resolver r).leaf? s = .ok leaf) ∧
        leaves = (r.repositories.filterMap (settings.resolver r).own?).mergeSort
          fun a b => a.key ≤ b.key := generate_eq_ok_iff rfl

/-- What is explained is the repository itself. -/
theorem Explanation.ofResources_of_alone (h : Alone r.repositories s)
    (hkey : Text.eqIgnoringAsciiCase (SourceRepository.key s) key = true) :
    Explanation.ofResources settings r key =
      ((settings.resolver r).leaf? s).mapError RunError.resolve >>= fun leaf =>
        Except.ok {
          repository := SourceRepository.key s
          isBoot := (settings.resolver r).isBoot s
          chain := (settings.resolver r).chain s
          effective := (leaf.map (·.fragment)).getD ∅ } := by
  unfold Explanation.ofResources
  dsimp only
  rw [h.find? hkey]
  rfl

/-- Among the leaves of all repositories, those of its key are its own. -/
theorem own?_of_mem (h : Alone r.repositories s) (hleaves : settings.leaves r = .ok leaves)
    {leaf : Leaf} :
    (leaf ∈ leaves ∧ leaf.key = SourceRepository.key s) ↔
      (settings.resolver r).own? s = some leaf := by
  obtain ⟨-, -, rfl⟩ := leaves_eq_ok_iff.1 hleaves
  rw [List.mem_mergeSort, List.mem_filterMap]
  constructor
  · rintro ⟨⟨s', hs', hown⟩, hkey⟩
    -- the leaf comes from a record of the key, which can only be the repository
    rw [h.eq_of_key hs' ((Resolver.key_of_own? hown).symm.trans hkey)] at hown
    exact hown
  · exact fun hown => ⟨⟨s, h.mem, hown⟩, Resolver.key_of_own? hown⟩

/-- A repository among others that are all resolved is explained as it is resolved. -/
theorem Explanation.exists_agrees (h : Alone r.repositories s)
    (hkey : Text.eqIgnoringAsciiCase (SourceRepository.key s) key = true)
    (hleaves : settings.leaves r = .ok leaves) :
    ∃ x, Explanation.ofResources settings r key = .ok x ∧ x.Agrees s leaves := by
  obtain ⟨-, hresolved, -⟩ := leaves_eq_ok_iff.1 hleaves
  obtain ⟨leaf, hleaf⟩ := hresolved s h.mem
  have hown : (settings.resolver r).own? s = leaf := Resolver.own?_of_leaf? hleaf
  -- without a chain there is no leaf, and the other way round
  have hnil : (settings.resolver r).chain s = [] ↔ leaf = none := by
    rw [← hown]
    exact Resolver.chain_eq_nil_iff ⟨leaf, hleaf⟩
  have hall (own : Leaf) : (own ∈ leaves ∧ own.key = SourceRepository.key s) ↔ leaf = some own :=
    hown ▸ own?_of_mem h hleaves
  have hexplained : ofResources settings r key = _ := ofResources_of_alone h hkey
  rw [hleaf] at hexplained
  refine ⟨_, hexplained, ?_⟩
  exact {
    repository := rfl
    chain := by
      refine hnil.trans ⟨?_, ?_⟩
      · rintro rfl own hmem hown
        cases (hall own).1 ⟨hmem, hown⟩
      · intro hnone
        refine Option.eq_none_iff_forall_ne_some.2 fun own hleaf => ?_
        obtain ⟨hmem, hown⟩ := (hall own).2 hleaf
        exact hnone own hmem hown
    effective := by
      intro own hmem hkey
      -- a leaf of the key is the one that was folded for the repository
      obtain rfl := (hall own).1 ⟨hmem, hkey⟩
      obtain ⟨horg, hrepo, -⟩ := Resolver.foldChain_of_leaf? hleaf
      rw [← horg, ← hrepo]
      rfl
    nothing := by
      intro hempty
      obtain rfl := hnil.1 hempty
      rfl
    boot := (settings.resolver r).isBoot_iff s }

/-- What keeps a repository from being explained keeps all of them from being resolved. -/
theorem Explanation.exists_leaves_eq_error (h : Alone r.repositories s)
    (hkey : Text.eqIgnoringAsciiCase (SourceRepository.key s) key = true) {e : RunError}
    (hexplained : Explanation.ofResources settings r key = .error e) :
    ∃ repository cause, settings.leaves r = .error (.merge repository cause) := by
  rw [ofResources_of_alone h hkey] at hexplained
  have hleaf : ∃ e', (settings.resolver r).leaf? s = .error e' := by
    -- only folding the chain can have failed
    cases hleaf : (settings.resolver r).leaf? s with
    | error e' => exact ⟨e', rfl⟩
    | ok leaf =>
      rw [hleaf] at hexplained
      cases hexplained
  obtain ⟨e', he'⟩ := hleaf
  obtain ⟨e', he'⟩ := mapM_error_of_mem h.mem he'
  -- the traversal fails with the first repository whose groups are in conflict
  obtain ⟨before, first, after, -, -, hfirst⟩ := mapM_eq_error_iff.1 he'
  obtain ⟨cause, -, rfl⟩ := Resolver.leaf?_eq_error_iff.1 hfirst
  exact ⟨_, cause, (generate_eq_error_iff (List.ne_nil_of_mem h.mem)).2 he'⟩

end Resources

/-! ### Runs -/

section Runs

variable {e : EffectiveSettings} {t : FileTree} {r : ResourceSet} {s : SourceRepository}
  {key : String}

/-- An explanation reads, and what it comes to are the loaded resources explained. -/
theorem reads_explainRepository (settings : Settings) (key : String) :
    Reads (explainRepository settings key) fun t =>
      resourcesIn settings.resourcesDir (t.find? settings.resourcesDir) >>= fun r =>
        Explanation.ofResources settings r key :=
  (reads_loadResources _).bind fun _ => reads_ofExcept _

/-- A compilation fails with the repositories that it resolves, before it writes anything. -/
theorem run_generateFiles_of_leaves_eq_error
    (hload : resourcesIn e.settings.resourcesDir (t.find? e.settings.resourcesDir) = .ok r)
    {cause : ResolveError} (hleaves : e.settings.leaves r = .error cause) :
    (generateFiles e : RunT (StateM FileTree) Report).run.run t =
      (.error (.resolve cause), t) := by
  have hread : (loadResources e.settings.resourcesDir : RunT (StateM FileTree) _).run.run t =
      (.ok r, t) := (reads_loadResources _ t).trans (Prod.ext hload rfl)
  have hcompile : Compilation.ofResources e r = .error (.resolve cause) := by
    unfold Compilation.ofResources
    change ((e.settings.leaves r).mapError RunError.resolve >>= _) = _
    rw [hleaves]
    rfl
  refine (run_bind_of_ok hread).trans (run_bind_of_error ?_)
  rw [hcompile]
  rfl

/-- **An explanation agrees with what is generated.** When the repositories below a directory are
all resolved, one that no other record can be taken for is explained under every spelling of its
key, and the explanation has its leaf; when it cannot be explained because its groups are in
conflict, the directory is not compiled either, and nothing is written. -/
theorem explained_as_generated
    (hload : resourcesIn e.settings.resourcesDir (t.find? e.settings.resourcesDir) = .ok r)
    (halone : Alone r.repositories s)
    (hkey : Text.eqIgnoringAsciiCase (SourceRepository.key s) key = true) :
    (∀ leaves, e.settings.leaves r = .ok leaves → ∃ x,
      (explainRepository e.settings key : RunT (StateM FileTree) Explanation).run.run t =
        (.ok x, t) ∧ x.Agrees s leaves) ∧
    ∀ repository cause t',
      (explainRepository e.settings key : RunT (StateM FileTree) Explanation).run.run t =
        (.error (.resolve (.merge repository cause)), t') →
      ∃ repository' cause', (generateFiles e : RunT (StateM FileTree) Report).run.run t =
        (.error (.resolve (.merge repository' cause')), t) := by
  have hrun : (explainRepository e.settings key : RunT (StateM FileTree) Explanation).run.run t =
      (Explanation.ofResources e.settings r key, t) := by
    refine (reads_explainRepository e.settings key t).trans ?_
    dsimp only
    rw [hload]
    rfl
  rw [hrun]
  constructor
  · intro leaves hleaves
    obtain ⟨x, hx, hagrees⟩ := Explanation.exists_agrees halone hkey hleaves
    exact ⟨x, Prod.ext hx rfl, hagrees⟩
  · intro repository cause t' herror
    obtain ⟨repository', cause', hleaves⟩ :=
      Explanation.exists_leaves_eq_error halone hkey (Prod.mk.inj herror).1
    exact ⟨repository', cause', run_generateFiles_of_leaves_eq_error hload hleaves⟩

end Runs

/-! ### A shop in other letters -/

namespace Capitals

open Yaml (word wordMap)

/-- The shop is the boot repository. -/
def textDev : String :=
  "apiVersion: v1\nkind: Environment\nmetadata: \x7bname: dev\x7d\n" ++
    "spec:\n  source:\n    url: https://git.example.com/acme/shop.git\n"

def textBackend : String :=
  "apiVersion: v1\nkind: SourceRepositoryGroup\nmetadata: \x7bname: backend\x7d\n" ++
    "spec:\n  repositories:\n  - name: shop\n  scheduler: \x7bname: tekton\x7d\n"

def textLegacy : String :=
  "apiVersion: v1\nkind: SourceRepositoryGroup\nmetadata: \x7bname: legacy\x7d\n" ++
    "spec:\n  repositories:\n  - name: shop\n  scheduler: \x7bname: plain\x7d\n"

def textTekton : String :=
  "apiVersion: v1\nkind: Scheduler\nmetadata: \x7bname: tekton\x7d\n" ++
    "spec:\n  presubmits:\n    items:\n    - name: lint\n      agent: tekton\n"

/-- The same job without an agent. -/
def textPlain : String :=
  "apiVersion: v1\nkind: Scheduler\nmetadata: \x7bname: plain\x7d\n" ++
    "spec:\n  presubmits:\n    items:\n    - name: lint\n"

/-- The depot has no scheduler, and the shop has one of its own. -/
def whole : FileTree := .directory [
  ("depot.yaml", .file Twins.textDepot), ("dev.yaml", .file textDev),
  ("own.yaml", .file Twins.textOwn), ("shop.yaml", .file Twins.textShop)]

/-- The groups of the shop define one job differently. -/
def torn : FileTree := .directory [
  ("backend.yaml", .file textBackend), ("legacy.yaml", .file textLegacy),
  ("plain.yaml", .file textPlain), ("shop.yaml", .file Twins.textShop),
  ("tekton.yaml", .file textTekton)]

def files : FileTree := .directory [("torn", torn), ("whole", whole)]

def settings (dir : String) : EffectiveSettings where
  settings := { resourcesDir := dir }
  sources := []

def dev : Environment where
  apiVersion := "v1"
  kind := Kind.environment.name
  metadata := { name := "dev" }
  spec := { source := { url := some "https://git.example.com/acme/shop.git" } }

def depot : SourceRepository := Twins.repository "depot" "depot"

def shop : SourceRepository := Twins.repository "shop" "shop" (some { name := "own" })

def group (name scheduler : String) : SourceRepositoryGroup where
  apiVersion := "v1"
  kind := Kind.sourceRepositoryGroup.name
  metadata := { name }
  spec := { repositories := [{ name := "shop" }], scheduler := some { name := scheduler } }

def linter (name : String) (agent : Option String) : Scheduler where
  apiVersion := "v1"
  kind := Kind.scheduler.name
  metadata := { name }
  spec := { presubmits := some { items := [{ name := "lint", agent }] } }

def resourcesWhole : ResourceSet where
  schedulers := [Twins.own]
  repositories := [depot, shop]
  environments := [dev]

def resourcesTorn : ResourceSet where
  schedulers := [linter "plain" none, linter "tekton" (some "tekton")]
  repositories := [shop]
  groups := [group "backend" "tekton", group "legacy" "plain"]

set_option maxRecDepth 4000 in
theorem documents?_dev : Yaml.documents? textDev = some [Twins.tree "Environment" "dev" [
    ("source", wordMap [("url", word "https://git.example.com/acme/shop.git")])]] := by cbv

/-- The tree of a group. -/
def treeGroup (name scheduler : String) : Yaml.Tree :=
  Twins.tree "SourceRepositoryGroup" name [
    ("repositories", .seq none none [wordMap [("name", word "shop")]]),
    ("scheduler", wordMap [("name", word scheduler)])]

/-- The tree of a scheduler with one presubmit. -/
def treeLinter (name : String) (job : List (String × Yaml.Tree)) : Yaml.Tree :=
  Twins.tree "Scheduler" name [
    ("presubmits", wordMap [("items", .seq none none [wordMap job])])]

set_option maxRecDepth 4000 in
theorem documents?_backend :
    Yaml.documents? textBackend = some [treeGroup "backend" "tekton"] := by cbv

set_option maxRecDepth 4000 in
theorem documents?_legacy :
    Yaml.documents? textLegacy = some [treeGroup "legacy" "plain"] := by cbv

set_option maxRecDepth 4000 in
theorem documents?_tekton : Yaml.documents? textTekton =
    some [treeLinter "tekton" [("name", word "lint"), ("agent", word "tekton")]] := by cbv

set_option maxRecDepth 4000 in
theorem documents?_plain :
    Yaml.documents? textPlain = some [treeLinter "plain" [("name", word "lint")]] := by cbv

theorem ofTree_whole : ResourceSet.ofTree "whole" whole = .ok resourcesWhole := by
  have hdepot : ResourceSet.inFile "whole/depot.yaml" (.text Twins.textDepot) =
      .ok [.repository depot] :=
    ResourceSet.inFile_of_document (Yaml.values?_of_tree Twins.documents?_depot rfl) rfl _
  have hdev : ResourceSet.inFile "whole/dev.yaml" (.text textDev) = .ok [.environment dev] :=
    ResourceSet.inFile_of_document (Yaml.values?_of_tree documents?_dev rfl) rfl _
  have hown : ResourceSet.inFile "whole/own.yaml" (.text Twins.textOwn) =
      .ok [.scheduler Twins.own] :=
    ResourceSet.inFile_of_document (Yaml.values?_of_tree Twins.documents?_own rfl) rfl _
  have hshop : ResourceSet.inFile "whole/shop.yaml" (.text Twins.textShop) =
      .ok [.repository shop] :=
    ResourceSet.inFile_of_document (Yaml.values?_of_tree Twins.documents?_shop rfl) rfl _
  have hfiles : List.Forall₂ (fun f x => ResourceSet.inFile f.1 f.2 = .ok [x])
      (whole.yamlFiles "whole")
      [.repository depot, .environment dev, .scheduler Twins.own, .repository shop] :=
    .cons hdepot (.cons hdev (.cons hown (.cons hshop .nil)))
  refine (ResourceSet.ofFiles_of_inFile hfiles).trans (congrArg Except.ok ?_)
  exact ResourceSet.ofList_of_ascending (by decide) (by decide) (by decide) (by decide)

theorem ofTree_torn : ResourceSet.ofTree "torn" torn = .ok resourcesTorn := by
  have hbackend : ResourceSet.inFile "torn/backend.yaml" (.text textBackend) =
      .ok [.group (group "backend" "tekton")] :=
    ResourceSet.inFile_of_document (Yaml.values?_of_tree documents?_backend rfl) rfl _
  have hlegacy : ResourceSet.inFile "torn/legacy.yaml" (.text textLegacy) =
      .ok [.group (group "legacy" "plain")] :=
    ResourceSet.inFile_of_document (Yaml.values?_of_tree documents?_legacy rfl) rfl _
  have hplain : ResourceSet.inFile "torn/plain.yaml" (.text textPlain) =
      .ok [.scheduler (linter "plain" none)] :=
    ResourceSet.inFile_of_document (Yaml.values?_of_tree documents?_plain rfl) rfl _
  have hshop : ResourceSet.inFile "torn/shop.yaml" (.text Twins.textShop) =
      .ok [.repository shop] :=
    ResourceSet.inFile_of_document (Yaml.values?_of_tree Twins.documents?_shop rfl) rfl _
  have htekton : ResourceSet.inFile "torn/tekton.yaml" (.text textTekton) =
      .ok [.scheduler (linter "tekton" (some "tekton"))] :=
    ResourceSet.inFile_of_document (Yaml.values?_of_tree documents?_tekton rfl) rfl _
  have hfiles : List.Forall₂ (fun f x => ResourceSet.inFile f.1 f.2 = .ok [x])
      (torn.yamlFiles "torn")
      [.group (group "backend" "tekton"), .group (group "legacy" "plain"),
        .scheduler (linter "plain" none), .repository shop,
        .scheduler (linter "tekton" (some "tekton"))] :=
    .cons hbackend (.cons hlegacy (.cons hplain (.cons hshop (.cons htekton .nil))))
  refine (ResourceSet.ofFiles_of_inFile hfiles).trans (congrArg Except.ok ?_)
  exact ResourceSet.ofList_of_ascending (by decide) (by decide) (by decide) (by decide)

theorem resourcesIn_whole : resourcesIn "whole" (files.find? "whole") = .ok resourcesWhole :=
  resourcesIn_of_ofTree rfl ofTree_whole

theorem resourcesIn_torn : resourcesIn "torn" (files.find? "torn") = .ok resourcesTorn :=
  resourcesIn_of_ofTree rfl ofTree_torn

theorem alone_whole : Alone resourcesWhole.repositories shop :=
  ⟨[depot], [], rfl, by decide⟩

theorem alone_torn : Alone resourcesTorn.repositories shop :=
  ⟨[], [], rfl, by decide⟩

/-- The leaf of the shop publishes what is generated. -/
def leaf : Leaf := {
  org := "acme", repo := "shop", fragment := onto ({} : Bootstrap).fragment (onto ∅ ∅) }

theorem leaves_whole : (settings "whole").settings.leaves resourcesWhole = .ok [leaf] := by
  refine leaves_eq_ok_iff.2 ⟨List.cons_ne_nil _ _, ?_, ?_⟩
  · simp only [resourcesWhole, List.forall_mem_cons]
    exact ⟨⟨none, rfl⟩, ⟨some leaf, rfl⟩, List.forall_mem_nil _⟩
  · exact (List.mergeSort_singleton leaf).symm

theorem ofResources_torn : ∃ cause,
    Explanation.ofResources (settings "torn").settings resourcesTorn "ACME/Shop" =
      .error (.resolve (.merge "acme/shop" cause)) := ⟨_, rfl⟩

/-- In capitals the shop is explained with its leaf, as the boot repository, or with its groups it
is in conflict, and nothing is generated. -/
theorem explained_as_generated_in_capitals :
    resourcesIn "whole" (files.find? "whole") = .ok resourcesWhole ∧
    resourcesIn "torn" (files.find? "torn") = .ok resourcesTorn ∧
    Alone resourcesWhole.repositories shop ∧ Alone resourcesTorn.repositories shop ∧
    Text.eqIgnoringAsciiCase (SourceRepository.key shop) "ACME/Shop" = true ∧
    (∃ x, (explainRepository (settings "whole").settings "ACME/Shop" :
        RunT (StateM FileTree) Explanation).run.run files = (.ok x, files) ∧
      x.Agrees shop [leaf]) ∧
    ∃ repository cause, (generateFiles (settings "torn") :
        RunT (StateM FileTree) Report).run.run files =
      (.error (.resolve (.merge repository cause)), files) := by
  have hkey : Text.eqIgnoringAsciiCase (SourceRepository.key shop) "ACME/Shop" = true := by decide
  refine ⟨resourcesIn_whole, resourcesIn_torn, alone_whole, alone_torn, hkey, ?_, ?_⟩
  · exact (explained_as_generated (e := settings "whole") resourcesIn_whole alone_whole hkey).1
      [leaf] leaves_whole
  · obtain ⟨cause, hexplained⟩ := ofResources_torn
    refine (explained_as_generated (e := settings "torn") resourcesIn_torn alone_torn hkey).2
      "acme/shop" cause files ?_
    refine (reads_explainRepository (settings "torn").settings "ACME/Shop" files).trans ?_
    change (resourcesIn "torn" (files.find? "torn") >>= _, files) = _
    rw [resourcesIn_torn]
    exact Prod.ext hexplained rfl

end Capitals

end SchedulerPolicy
