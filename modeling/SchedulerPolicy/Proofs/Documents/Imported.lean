import Mathlib
import SchedulerPolicy.Command.Import
import SchedulerPolicy.Proofs.Documents.Allocation
import SchedulerPolicy.Proofs.Files.Loading
import SchedulerPolicy.Proofs.Schema.Recovered
import SchedulerPolicy.Proofs.Yaml.Words

/-!
# Imported files are found again

A recovered resource is written to a file that is called after it. Keys can hold any characters, but
the name of a resource can hold neither a slash nor a period, and it is not empty
(`Recovered.isStem_of_mem_names`); so its file stands in the directory of its kind and nowhere else,
and is not hidden. Names are distinct (`Recovered.Allocated`), so no file takes the place of
another. Hence everything that is written is loaded again, and it comes back as it was
(`loaded_of_import`).
-/

namespace SchedulerPolicy

variable {d : Documents} {r : Recovered}

/-! ### Names of files -/

/-- Separators do not survive in the name of a resource. -/
theorem notMem_resourceName {c : Char} (h : c = '/' ∨ c = '.' ∨ c = '_') (org repo : String) :
    c ∉ (resourceName org repo).toList := by
  unfold resourceName
  rw [String.toList_ofList]
  intro hc
  obtain ⟨b, -, hb⟩ := List.mem_map.1 hc
  split at hb
  · subst hb
    revert h
    decide
  · next hsep => exact hsep (hb ▸ h)

theorem notMem_numberedName {c : Char} {base : String} (hbase : c ∉ base.toList) (hdash : c ≠ '-')
    (hdigit : c.isDigit = false) (i : Nat) : c ∉ (numberedName base i).toList := by
  unfold numberedName
  rw [String.toList_append, String.toList_append, List.mem_append, List.mem_append, not_or, not_or]
  refine ⟨⟨hbase, fun hc => hdash (List.mem_singleton.1 hc)⟩, fun hc => ?_⟩
  · rw [Nat.toString_eq_ofList_toDigits, String.toList_ofList] at hc
    rw [Nat.isDigit_of_mem_toDigits (by decide) (by decide) hc] at hdigit
    cases hdigit

/-- A name that is allocated can be the name of a file. -/
theorem Allocates.isStem {taken : List String} {org repo name : String}
    (h : Allocates taken (resourceName org repo) name) : Path.IsStem name := by
  have hdash := dash_mem_resourceName org repo
  have hslash : '/' ∉ (resourceName org repo).toList := notMem_resourceName (.inl rfl) org repo
  have hperiod : '.' ∉ (resourceName org repo).toList :=
    notMem_resourceName (.inr (.inl rfl)) org repo
  have hne : ∀ {name : String}, '-' ∈ name.toList → name ≠ "" := by
    rintro name hmem rfl
    cases hmem
  -- the number of a name brings in a dash and digits
  rcases h with ⟨-, rfl⟩ | ⟨-, i, rfl, -⟩
  · exact { slash := hslash, period := hperiod, ne_empty := hne hdash }
  · exact {
      slash := notMem_numberedName hslash (by decide) (by decide) i
      period := notMem_numberedName hperiod (by decide) (by decide) i
      ne_empty := hne (dash_mem_numberedName hdash i) }

/-- Every name of a scheduler can be the name of a file. -/
theorem Recovered.isStem_of_mem_names (h : recover d = .ok r) :
    ∀ name ∈ r.names, Path.IsStem name := by
  intro name hname
  rcases List.mem_cons.1 hname with rfl | hmem
  · exact { slash := by decide, period := by decide, ne_empty := by decide }
  · obtain ⟨s, hs, rfl⟩ := List.mem_map.1 hmem
    -- the name was allocated when the repository was added
    obtain ⟨before, after, hsplit⟩ := List.append_of_mem hs
    have hprefix : before ++ [s] <+: r.repositories :=
      ⟨after, by rw [hsplit, List.append_assoc, List.singleton_append]⟩
    exact ((exact_of_recover h).allocates before s hprefix).isStem

/-! ### Recovered resources -/

/-- The names of the schedulers ascend. -/
theorem Recovered.ascending_schedulerResources (r : Recovered) :
    r.schedulerResources.Pairwise fun a b => a.name < b.name :=
  List.pairwise_map.2 (r.schedulers.ascending.imp id)

theorem Recovered.mem_names_of_mem_schedulers (h : recover d = .ok r) :
    ∀ s ∈ r.schedulerResources, s.name ∈ r.names := by
  intro s hs
  obtain ⟨⟨name, f⟩, he, rfl⟩ := List.mem_map.1 hs
  have hget : r.schedulers.get? name = some f := Keyed.get?_eq_some_iff.2 he
  exact ((allocated_of_recover h).contains_iff name).1 (Option.isSome_iff_exists.2 ⟨f, hget⟩)

/-- Recovered repositories are repositories by kind. -/
theorem kind_of_mem_recovered (h : recover d = .ok r) :
    ∀ s ∈ r.repositories, s.kind = Kind.sourceRepository.name := by
  -- the induction is over the places that are left to add
  have hfold : ∀ (es : List (String × String × String)) (r : Recovered),
      (∀ s ∈ r.repositories, s.kind = Kind.sourceRepository.name) →
      ∀ s ∈ (es.foldl (fun r e => r.addRepository d e.1 e.2.1 e.2.2) r).repositories,
        s.kind = Kind.sourceRepository.name := by
    intro es
    induction es with
    | nil => exact fun r hr => hr
    | cons e es ih =>
      intro r hr
      refine ih _ fun s hs => ?_
      rcases List.mem_append.1 hs with hs | hs
      · exact hr s hs
      · rw [List.mem_singleton.1 hs]
        rfl
  obtain ⟨found, -, hr⟩ := bind_eq_ok_iff.1 h
  rw [← Except.ok.inj hr]
  exact hfold found.entries _ (List.forall_mem_nil _)

/-! ### Files -/

/-- The file of a resource in a folder. -/
def folderFile {α : Type} [Schema α] (folder : String) (s : Resource α) : FolderFile where
  folder := folder
  name := s.name ++ ".yaml"
  contents := Yaml.print (write s)

/-- The files of recovered resources, each with the resource that is in it. -/
def Recovered.filed (r : Recovered) : List (FolderFile × TeamResource) :=
  r.schedulerResources.map (fun s => (folderFile "schedulers" s, .scheduler s)) ++
    r.repositories.map fun s => (folderFile "repositories" s, .repository s)

theorem Recovered.files_eq (r : Recovered) (dir : String) :
    r.files dir = (r.filed.map Prod.fst).map fun f => (f.path dir, f.contents) := by
  unfold files filed
  rw [List.map_append, List.map_append, List.map_map, List.map_map, List.map_map, List.map_map]
  rfl

theorem Recovered.forall_mem_filed {P : FolderFile × TeamResource → Prop}
    (hschedulers : ∀ s ∈ r.schedulerResources, P (folderFile "schedulers" s, .scheduler s))
    (hrepositories : ∀ s ∈ r.repositories, P (folderFile "repositories" s, .repository s)) :
    ∀ p ∈ r.filed, P p := by
  intro p hp
  rcases List.mem_append.1 hp with hp | hp
  · obtain ⟨s, hs, rfl⟩ := List.mem_map.1 hp
    exact hschedulers s hs
  · obtain ⟨s, hs, rfl⟩ := List.mem_map.1 hp
    exact hrepositories s hs

/-- The files stand in the two directories, and each is called after a name of a scheduler. -/
theorem Recovered.exists_stem (h : recover d = .ok r) :
    ∀ p ∈ r.filed, (p.1.folder = "schedulers" ∨ p.1.folder = "repositories") ∧
      ∃ name, Path.IsStem name ∧ p.1.name = name ++ ".yaml" := by
  have hstem := isStem_of_mem_names h
  refine forall_mem_filed (fun s hs => ?_) (fun s hs => ?_)
  · exact ⟨Or.inl rfl, s.name, hstem s.name (mem_names_of_mem_schedulers h s hs), rfl⟩
  · have hname : s.name ∈ r.names := List.mem_cons_of_mem _ (List.mem_map_of_mem hs)
    exact ⟨Or.inr rfl, s.name, hstem s.name hname, rfl⟩

theorem Recovered.plain_of_mem_filed (h : recover d = .ok r) : ∀ p ∈ r.filed, p.1.Plain := by
  intro p hp
  obtain ⟨hfolder, name, hname, hp⟩ := exists_stem h p hp
  constructor
  case folder =>
    rcases hfolder with hfolder | hfolder <;> rw [hfolder] <;> constructor <;> decide
  case name => exact hp ▸ hname.isName_yaml

/-- No two files have one place. -/
theorem Recovered.nodup_place_filed (h : recover d = .ok r) :
    ((r.filed.map Prod.fst).map FolderFile.place).Nodup := by
  -- the files of one folder are called after different names
  have hfolder : ∀ {α : Type} [Schema α] {xs : List (Resource α)} (folder : String),
      (xs.map Resource.name).Nodup →
      (xs.map fun s => (folder, s.name ++ ".yaml")).Nodup := by
    intro α _ xs folder hxs
    refine List.pairwise_map.2 ((List.pairwise_map.1 hxs).imp fun hne heq => hne ?_)
    exact (String.append_left_inj _).1 (Prod.mk.inj heq).2
  have hschedulers := Keyed.nodup_of_ascending r.ascending_schedulerResources
  have hrepositories := (exact_of_recover h).nodup_names
  unfold filed
  rw [List.map_append, List.map_append, List.map_map, List.map_map, List.map_map, List.map_map,
    List.nodup_append]
  refine ⟨hfolder "schedulers" hschedulers, hfolder "repositories" hrepositories, ?_⟩
  -- and the two folders are different
  intro a ha b hb hab
  obtain ⟨s, -, rfl⟩ := List.mem_map.1 ha
  obtain ⟨s', -, rfl⟩ := List.mem_map.1 hb
  have hne : "schedulers" ≠ "repositories" := by decide
  exact hne (Prod.mk.inj hab).1

/-- Every file holds its resource. -/
theorem Recovered.inFile_of_mem_filed (hjobs : d.jobs.JobsReadBack) (h : recover d = .ok r)
    (hyaml : ∀ v ∈ r.schedulerResources.map write ++ r.repositories.map write,
      Yaml.values? (Yaml.print v) = some [v]) (root : String) :
    ∀ p ∈ r.filed, ResourceSet.inFile (p.1.path root) (.text p.1.contents) = .ok [p.2] := by
  refine forall_mem_filed (fun s hs => ?_) (fun s hs => ?_)
  · have hvalues := hyaml (write s) (List.mem_append_left _ (List.mem_map_of_mem hs))
    have hkind : s.kind = Kind.scheduler.name := by
      obtain ⟨e, -, rfl⟩ := List.mem_map.1 hs
      rfl
    exact ResourceSet.inFile_of_document hvalues
      (TeamResource.ofKind_scheduler.ofDocument?_write hkind
        (readsBack_of_mem_schedulers hjobs h s hs)) _
  · have hvalues := hyaml (write s) (List.mem_append_right _ (List.mem_map_of_mem hs))
    -- what a repository holds comes back wherever it is from
    have hback : ReadsBack s := Resource.readsBack (Faithful.readsBack s.spec)
    exact ResourceSet.inFile_of_document hvalues
      (TeamResource.ofKind_repository.ofDocument?_write (kind_of_mem_recovered h s hs) hback) _

/-- The resources of the files are the schedulers and the repositories. -/
theorem Recovered.map_snd_filed (r : Recovered) :
    r.filed.map Prod.snd =
      r.schedulerResources.map .scheduler ++ r.repositories.map .repository := by
  unfold filed
  rw [List.map_append, List.map_map, List.map_map]
  rfl

/-- A set of resources consists of what was recovered, sorted by name. -/
structure Recovered.Loaded (r : Recovered) (set : ResourceSet) : Prop where
  schedulers : set.schedulers = r.schedulerResources
  ascending_schedulers : set.schedulers.Pairwise fun a b => a.name < b.name
  repositories : set.repositories.Perm r.repositories
  ascending_repositories : set.repositories.Pairwise fun a b => a.name < b.name
  groups : set.groups = []
  environments : set.environments = []

/-- What was recovered is sorted from whatever order it is found in. -/
theorem Recovered.loaded_of_perm (h : recover d = .ok r) {found : List TeamResource}
    (hfound : found.Perm
      (r.schedulerResources.map .scheduler ++ r.repositories.map .repository)) :
    r.Loaded (.ofList found) := by
  -- of each kind, just the resources of the kind are kept
  have hschedulers : (found.filterMap (·.scheduler?)).Perm r.schedulerResources := by
    simpa [Function.comp_def, TeamResource.scheduler?] using hfound.filterMap (·.scheduler?)
  have hrepositories : (found.filterMap (·.repository?)).Perm r.repositories := by
    simpa [Function.comp_def, TeamResource.repository?] using hfound.filterMap (·.repository?)
  have hgroups : found.filterMap (·.group?) = [] := by
    simpa [Function.comp_def, TeamResource.group?] using hfound.filterMap (·.group?)
  have henvironments : found.filterMap (·.environment?) = [] := by
    simpa [Function.comp_def, TeamResource.environment?] using hfound.filterMap (·.environment?)
  have hnodup := (hrepositories.map Resource.name).nodup_iff.2 (exact_of_recover h).nodup_names
  have hsorted : (ResourceSet.ofList found).schedulers = r.schedulerResources :=
    ResourceSet.sortByName_eq hschedulers r.ascending_schedulerResources
  constructor
  case schedulers => exact hsorted
  case ascending_schedulers =>
    rw [hsorted]
    exact r.ascending_schedulerResources
  case repositories => exact (List.mergeSort_perm _ _).trans hrepositories
  case ascending_repositories => exact ResourceSet.ascending_sortByName hnodup
  case groups =>
    unfold ResourceSet.ofList ResourceSet.sortByName
    rw [hgroups, List.mergeSort_nil]
  case environments =>
    unfold ResourceSet.ofList ResourceSet.sortByName
    rw [henvironments, List.mergeSort_nil]

/-- **Imported files are safe and load back.** Whatever the keys of the documents hold, there is one
file for each scheduler and one for each repository, all under different paths, directly in the
directory of their kind and not hidden. In a fresh directory they are all written, nothing else is
found there, and what is loaded from it are the very schedulers and repositories that were
recovered. -/
theorem loaded_of_import {t : FileTree} {dir : String}
    (hread : (∃ x : Value, read x = .ok d.jobs) ∨ ∃ text, Yaml.read? text = some d.jobs)
    (hrecover : recover d = .ok r)
    (hyaml : ∀ v ∈ r.schedulerResources.map write ++ r.repositories.map write,
      Yaml.values? (Yaml.print v) = some [v])
    (hfresh : t.find? dir = some ∅) :
    ((r.files dir).map Prod.fst).Nodup ∧
    (∀ path ∈ (r.files dir).map Prod.fst, ∃ folder name,
      (folder = "schedulers" ∨ folder = "repositories") ∧ Path.IsName name ∧
      Path.isHidden name = false ∧ path = Path.join (Path.join dir folder) name) ∧
    ∃ t' u set,
      (RunT.writeFiles (r.files dir) : RunT (StateM FileTree) Unit).run.run t = (.ok (), t') ∧
      t'.find? dir = some u ∧
      (u.files []).Perm
        ((r.schedulerResources.map fun s =>
            (["schedulers", s.name ++ ".yaml"], Yaml.print (write s))) ++
          r.repositories.map fun s =>
            (["repositories", s.name ++ ".yaml"], Yaml.print (write s))) ∧
      (RunT.loadResources dir : RunT (StateM FileTree) ResourceSet).run.run t' = (.ok set, t') ∧
      r.Loaded set := by
  have hjobs : d.jobs.JobsReadBack := JobDocument.WasRead.jobsReadBack hread
  have hplain : ∀ f ∈ r.filed.map Prod.fst, f.Plain :=
    List.forall_mem_map.2 (Recovered.plain_of_mem_filed hrecover)
  have hplaces := Recovered.nodup_place_filed hrecover
  rw [r.files_eq dir, List.map_map]
  refine ⟨?paths, ?shape, ?run⟩
  case paths =>
    -- a path tells the place of a file, and a place the file
    refine List.Nodup.map_on (fun f hf g hg hpath => ?_) hplaces.of_map
    have hplace := FolderFile.place_eq_of_path (hplain f hf) (hplain g hg) hpath
    exact List.inj_on_of_nodup_map hplaces hf hg hplace
  case shape =>
    intro path hpath
    obtain ⟨f, hf, rfl⟩ := List.mem_map.1 hpath
    obtain ⟨p, hp, rfl⟩ := List.mem_map.1 hf
    obtain ⟨hfolder, name, hstem, hname⟩ := Recovered.exists_stem hrecover p hp
    exact ⟨p.1.folder, p.1.name, hfolder, (hplain p.1 hf).name, hname ▸ hstem.isHidden_yaml, rfl⟩
  case run =>
    obtain ⟨t', hrun, hfind⟩ := FolderFile.exists_writeFiles (m := ∅) hplain hfresh
    have hall := FolderFile.all_perm hplaces
    have hheld := Recovered.inFile_of_mem_filed hjobs hrecover hyaml dir
    -- nothing that is written is passed over
    have hshown : ∀ p ∈ r.filed, Path.isHidden p.1.folder = false ∧
        Path.isHidden p.1.name = false ∧ Path.isYaml (p.1.path dir) = true := by
      intro p hp
      obtain ⟨hfolder, name, hstem, hname⟩ := Recovered.exists_stem hrecover p hp
      unfold FolderFile.path
      rw [hname]
      refine ⟨?_, hstem.isHidden_yaml, hstem.isYaml_join _⟩
      rcases hfolder with hfolder | hfolder <;> rw [hfolder] <;> decide
    obtain ⟨found, hfound, hload⟩ := ResourceSet.exists_ofTree_folders hall hshown hheld
    rw [r.map_snd_filed] at hfound
    refine ⟨t', _, _, hrun, hfind, ?_, RunT.run_loadResources hfind hload,
      Recovered.loaded_of_perm hrecover hfound⟩
    -- what the directory lists is what was written
    have hlisted := hall.map fun f => ([f.folder, f.name], f.contents)
    rw [FolderFile.files_folders]
    refine hlisted.trans (List.Perm.of_eq ?_)
    unfold Recovered.filed
    rw [List.map_append, List.map_append, List.map_map, List.map_map, List.map_map, List.map_map]
    rfl

namespace Dotted

open Yaml (word wordMap entryRows_word belowLine_word belowLine_map values?_print)

/-- A repository whose key has capitals in it and periods at the start of a name. -/
def jobsValue : Value := .record [("presubmits", .record [
  ("Acme.io/.x", .seq [.record [("name", .string "lint")]])])]

def documents : Documents where
  jobs := { presubmits := .ofList [("Acme.io/.x", [{ name := "lint" }])] }
  plugins := {}

def policy : Fragment := { presubmits := some { items := [{ name := "lint" }] } }

def recovered : Recovered where
  schedulers := .ofList [("default", Recover.teamFragment {}), ("acme-io--x", policy)]
  repositories := [.ofParts "acme-io--x" "Acme.io" ".x" (some "acme-io--x")]
  defaultScheduler := "default"

theorem recover_documents : recover documents = .ok recovered := by
  have hfound : documents.repositories = .ok (.ofList [("Acme.io/.x", "Acme.io", ".x")]) := rfl
  refine bind_eq_of_ok hfound (congrArg Except.ok ?_)
  change (Recovered.ofTeam documents.jobs).addRepository documents "Acme.io/.x" "Acme.io" ".x" = _
  have hname : resourceName "Acme.io" ".x" = "acme-io--x" := rfl
  have hpolicy : Recover.repositoryFragment documents "Acme.io/.x" "Acme.io" ".x" = policy := rfl
  rw [Recovered.addRepository_eq hname rfl hpolicy]
  rfl

/-- The texts in the documents of what is recovered. -/
def words : List String :=
  ["apiVersion", "jenkins.io/v1", "kind", "Scheduler", "SourceRepository", "metadata", "name",
    "default", "acme-io--x", "spec", "presubmits", "items", "lint", "org", "Acme.io", "repo", ".x",
    "scheduler"]

/-- Each of the texts is written as it is. -/
theorem isWord_of_mem {s : String} (h : s ∈ words) : Yaml.IsWord s :=
  .of_mem (by decide) (by cbv) h

/-! Each resource as a value, as a text and as a tree. -/

def teamValue : Value := .map [
  (.string "apiVersion", .string "jenkins.io/v1"), (.string "kind", .string "Scheduler"),
  (.string "metadata", .map [(.string "name", .string "default")]), (.string "spec", .map [])]

def policyValue : Value := .map [
  (.string "apiVersion", .string "jenkins.io/v1"), (.string "kind", .string "Scheduler"),
  (.string "metadata", .map [(.string "name", .string "acme-io--x")]),
  (.string "spec", .map [(.string "presubmits", .map [
    (.string "items", .seq [.map [(.string "name", .string "lint")]])])])]

def repositoryValue : Value := .map [
  (.string "apiVersion", .string "jenkins.io/v1"), (.string "kind", .string "SourceRepository"),
  (.string "metadata", .map [(.string "name", .string "acme-io--x")]),
  (.string "spec", .map [
    (.string "org", .string "Acme.io"), (.string "repo", .string ".x"),
    (.string "scheduler", .map [
      (.string "kind", .string "Scheduler"), (.string "name", .string "acme-io--x")])])]

def teamText : String :=
  "apiVersion: jenkins.io/v1\nkind: Scheduler\nmetadata:\n  name: default\nspec: \x7b\x7d\n"

def policyText : String :=
  "apiVersion: jenkins.io/v1\nkind: Scheduler\nmetadata:\n  name: acme-io--x\n" ++
    "spec:\n  presubmits:\n    items:\n    - name: lint\n"

def repositoryText : String :=
  "apiVersion: jenkins.io/v1\nkind: SourceRepository\nmetadata:\n  name: acme-io--x\n" ++
    "spec:\n  org: Acme.io\n  repo: .x\n" ++
    "  scheduler:\n    kind: Scheduler\n    name: acme-io--x\n"

def resource (kind name : String) (spec : Yaml.Tree) : Yaml.Tree := wordMap [
  ("apiVersion", word "jenkins.io/v1"), ("kind", word kind),
  ("metadata", wordMap [("name", word name)]), ("spec", spec)]

def teamTree : Yaml.Tree := resource "Scheduler" "default" (wordMap [])

def policyTree : Yaml.Tree := resource "Scheduler" "acme-io--x" (wordMap [
  ("presubmits", wordMap [("items", .seq none none [wordMap [("name", word "lint")]])])])

def repositoryTree : Yaml.Tree := resource "SourceRepository" "acme-io--x" (wordMap [
  ("org", word "Acme.io"), ("repo", word ".x"),
  ("scheduler", wordMap [("kind", word "Scheduler"), ("name", word "acme-io--x")])])

theorem print_team : Yaml.print teamValue = teamText := by
  change Yaml.joinRows 0 (Yaml.entryRows 0 _) = _
  simp (disch := exact isWord_of_mem (by decide)) only [entryRows_word, belowLine_word,
    belowLine_map]
  rfl

set_option maxRecDepth 2000 in
theorem print_policy : Yaml.print policyValue = policyText := by
  have hitems : ∀ indent listIndent, Yaml.belowLine indent listIndent
      (.seq [.map [(.string "name", .string "lint")]]) = "\n" ++ Yaml.pad listIndent ++
        Yaml.joinRows listIndent ["- " ++ Yaml.joinRows (listIndent + 2)
          (Yaml.entryRows (listIndent + 2) [(.string "name", .string "lint")])] :=
    fun _ _ => rfl
  change Yaml.joinRows 0 (Yaml.entryRows 0 _) = _
  simp (disch := exact isWord_of_mem (by decide)) only [entryRows_word, belowLine_word,
    belowLine_map, hitems]
  rfl

set_option maxRecDepth 2000 in
theorem print_repository : Yaml.print repositoryValue = repositoryText := by
  change Yaml.joinRows 0 (Yaml.entryRows 0 _) = _
  simp (disch := exact isWord_of_mem (by decide)) only [entryRows_word, belowLine_word,
    belowLine_map]
  rfl

theorem documents?_team : Yaml.documents? teamText = some [teamTree] := by cbv

set_option maxRecDepth 2000 in
theorem documents?_policy : Yaml.documents? policyText = some [policyTree] := by cbv

set_option maxRecDepth 2000 in
theorem documents?_repository : Yaml.documents? repositoryText = some [repositoryTree] := by cbv

theorem loaded_of_import_dotted :
    recover documents = .ok recovered ∧ ∃ t' set,
      (RunT.writeFiles (recovered.files "out") : RunT (StateM FileTree) Unit).run.run
        (.directory [("out", ∅)]) = (.ok (), t') ∧
      (RunT.loadResources "out" : RunT (StateM FileTree) ResourceSet).run.run t' = (.ok set, t') ∧
      recovered.Loaded set := by
  have hyaml : ∀ v ∈ recovered.schedulerResources.map write ++ recovered.repositories.map write,
      Yaml.values? (Yaml.print v) = some [v] := by
    change ∀ v ∈ [policyValue, teamValue, repositoryValue], _
    simp only [List.forall_mem_cons]
    exact ⟨values?_print print_policy documents?_policy rfl,
      values?_print print_team documents?_team rfl,
      values?_print print_repository documents?_repository rfl, List.forall_mem_nil _⟩
  have hfresh : (FileTree.directory [("out", ∅)]).find? "out" = some ∅ := rfl
  obtain ⟨-, -, t', -, set, hrun, -, -, hload, hloaded⟩ :=
    loaded_of_import (Or.inl ⟨jobsValue, rfl⟩) recover_documents hyaml hfresh
  exact ⟨recover_documents, t', set, hrun, hload, hloaded⟩

end Dotted

end SchedulerPolicy
