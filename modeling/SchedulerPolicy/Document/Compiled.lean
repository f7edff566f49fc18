import SchedulerPolicy.Document.Jobs
import SchedulerPolicy.Document.Plugins
import SchedulerPolicy.Fragment.Merge
import SchedulerPolicy.Resolution.Leaf

/-!
# Compiling leaves

The two documents of a list of leaves (`compile`). Every section is gathered from the leaves on its
own, and the sections differ in how several leaves share one place:

* what stands under the key of a repository comes from the leaves of that repository: jobs and
  plugins are joined, the merge method and the status checks of the last leaf count;
* `approve`, `lgtm` and `triggers` hold one entry for every leaf with such rules;
* queries with one search and welcome messages with one text share an entry, which lists the
  repositories;
* of periodic jobs with one name, of published files with one path and of report templates the first
  counts; of the settings of the merge queue and of `protect-tested-repos` the last.

A leaf whose organisation or repository is blank has no place in the documents and fails the whole.
The rules of the branches of a repository are filled in from leaf to leaf like fragments, and an
obstacle met there would fail it too (`CompileError.protection`).
-/

namespace SchedulerPolicy

/-- The two documents that the scheduler service reads. -/
structure Documents where
  jobs : JobDocument := {}
  plugins : PluginDocument := {}
deriving BEq, Inhabited

/-- Why leaves have no documents. -/
inductive CompileError where
  /-- The organisation or the repository of a leaf is blank. -/
  | invalidRepository (org repo : String)
  /-- The branch protection of a repository cannot be filled in. -/
  | protection (repository : String) (cause : AmbiguousJob)
deriving DecidableEq, Repr

/-- The error in words. -/
def CompileError.message : CompileError → String
  | .invalidRepository org repo =>
    "invalid repository '" ++ org ++ "/" ++ repo ++ "': org and repository must be non-empty"
  | .protection repository cause =>
    "failed to fold branch protection for " ++ repository ++ ": " ++ cause.message

/-- The attachment under which the report template is found. -/
def reportTemplateAttachment : String := "reportTemplate"

/-- The key of the report template that is meant for every repository. -/
def everyRepository : String := "*"

namespace Leaf

/-- Refuses a leaf without a repository. -/
def checkNames (l : Leaf) : Except CompileError Unit :=
  if Text.isBlank l.org || Text.isBlank l.repo then .error (.invalidRepository l.org l.repo)
  else .ok ()

/-- The report template that a leaf attaches: the first link of the first attachment of that name
that has links. -/
def reportTemplate? (l : Leaf) : Option String :=
  (itemsOf l.fragment.attachments).findSome? fun a =>
    if a.name == reportTemplateAttachment then a.urls.head? else none

/-- The queries of a leaf, each for the repository of the leaf and for no other. -/
def queries (l : Leaf) : List Query :=
  ((l.fragment.merger.bind (·.queries)).getD []).map fun q => { q with repos := [l.key] }

/-- The welcome messages of a leaf, with the repository that they are for. -/
def welcomes (l : Leaf) : List (String × String) :=
  (itemsOf l.fragment.welcome).map fun m => (l.key, m.messageTemplate)

/-- The files that a leaf publishes. -/
def publishedFiles (l : Leaf) : List (String × ConfigMapTarget) :=
  match l.fragment.configUpdater.bind (·.map) with
  | some files => files.entries
  | none => []

end Leaf

namespace Compile

/-! ### Places of one repository -/

/-- The items that every repository has in a section, in the order of the leaves. -/
def joinedByKey {α : Type} (items : Leaf → List α) (leaves : List Leaf) : Keyed (List α) :=
  leaves.foldl (fun m l =>
    match items l with
    | [] => m
    | xs => m.alter l.key fun earlier => earlier.getD [] ++ xs) ∅

/-- The items that every repository has in a section, each of them once. -/
def distinctByKey {α : Type} [BEq α] (items : Leaf → List α) (leaves : List Leaf) :
    Keyed (List α) :=
  leaves.foldl (fun m l =>
    match items l with
    | [] => m
    | xs => m.alter l.key fun earlier => appendMissing (earlier.getD []) xs) ∅

/-- The merge method of every repository that has one. -/
def mergeMethods (leaves : List Leaf) : Keyed String :=
  leaves.foldl (fun m l =>
    match l.fragment.merger.bind (·.mergeMethod) with
    | some method => m.insert l.key method
    | none => m) ∅

/-- The status checks of every repository that has them. -/
def contextTree (leaves : List Leaf) : ContextTree where
  orgs := leaves.foldl (fun m l =>
    match l.fragment.merger.bind (·.contextPolicy) with
    | some rules => m.alter l.org fun node =>
      { repos := (node.getD {}).repos.insert l.repo (RepoContexts.ofRules rules) }
    | none => m) ∅

/-! ### Branch protection -/

/-- The branch protection of every repository, by organisation, before it takes the form of the
document. -/
abbrev ProtectionTable := Keyed (Keyed Protection)

/-- Fills in the protection that a leaf gives to its repository. -/
def addProtection (table : ProtectionTable) (l : Leaf) : Except CompileError ProtectionTable :=
  match l.fragment.policy with
  | none => .ok table
  | some p =>
    -- what is said in general for all repositories has its own place
    let repos := (table.get? l.org).getD ∅
    match fill ((repos.get? l.repo).getD {}) { p with protectTested := none } with
    | .ok filled => .ok (table.insert l.org (repos.insert l.repo filled))
    | .error cause => .error (.protection l.key cause)

/-- The node of a repository, unless it says nothing. -/
def repoNode? (p : Protection) : Option RepoProtection :=
  let node : RepoProtection := {
    policy := (p.policy.map WireRules.ofRules).getD {}
    branches := (p.branches.getD ∅).map WireRules.ofRules }
  if node.policy.isEmpty && node.branches.isEmpty then none else some node

/-- The node of an organisation, unless none of its repositories has a node. -/
def orgNode? (repos : Keyed Protection) : Option OrgProtection :=
  let nodes := repos.filterMap repoNode?
  if nodes.isEmpty then none else some { repos := nodes }

/-! ### Places that leaves share -/

/-- The value of the last leaf that sets one. -/
def lastSet {α : Type} (value : Leaf → Option α) (leaves : List Leaf) : Option α :=
  leaves.foldl (fun earlier l => (value l).or earlier) none

/-- A setting of the merge queue, from the last leaf that sets it. -/
def queueSetting {α : Type} (value : MergeRules → Option α) (leaves : List Leaf) : Option α :=
  lastSet (fun l => l.fragment.merger.bind value) leaves

/-- Adds a job unless there is one of its name. -/
def addPeriodic (jobs : List Job) (job : Job) : List Job :=
  if jobs.any (·.name == job.name) then jobs else jobs ++ [job]

/-- The periodic jobs, of one name only the first. -/
def periodics (leaves : List Leaf) : List Job :=
  (leaves.flatMap fun l => (l.fragment.periodics.map (·.items)).getD []).foldl addPeriodic []

/-- Adds a repository to the first entry with a message, or an entry for the message. -/
def addWelcome : List WelcomeEntry → String × String → List WelcomeEntry
  | [], (key, message) => [{ repos := [key], messageTemplate := message }]
  | entry :: rest, (key, message) =>
    if entry.messageTemplate == message then
      (if entry.names key then entry else { entry with repos := entry.repos ++ [key] }) :: rest
    else entry :: addWelcome rest (key, message)

/-- The report template of the first leaf that attaches one, for every repository. -/
def reportTemplates (leaves : List Leaf) : Keyed String :=
  match leaves.findSome? Leaf.reportTemplate? with
  | some url => Keyed.ofList [(everyRepository, url)]
  | none => ∅

/-- The published files, for one path the target of the first leaf. -/
def published (leaves : List Leaf) : Keyed ConfigMapTarget :=
  (leaves.flatMap Leaf.publishedFiles).foldl (fun m e => m.insertNew e.1 e.2) ∅

/-! ### The documents -/

/-- The merge queue of a list of leaves. -/
def keeper (leaves : List Leaf) : Keeper where
  queries := (leaves.flatMap Leaf.queries).foldl foldQuery []
  mergeMethod := mergeMethods leaves
  syncPeriod := queueSetting (·.syncPeriod) leaves
  statusUpdatePeriod := queueSetting (·.statusUpdatePeriod) leaves
  targetUrl := queueSetting (·.targetUrl) leaves
  prStatusBaseUrl := queueSetting (·.prStatusBaseUrl) leaves
  blockerLabel := queueSetting (·.blockerLabel) leaves
  squashLabel := queueSetting (·.squashLabel) leaves
  maxGoroutines := queueSetting (·.maxGoroutines) leaves
  contextOptions := contextTree leaves

/-- The branch protection of a list of leaves. -/
def protectionTree (leaves : List Leaf) : Except CompileError ProtectionTree := do
  let table ← leaves.foldlM addProtection ∅
  return {
    protectTestedRepos := lastSet (fun l => l.fragment.policy.bind (·.protectTested)) leaves
    orgs := table.filterMap orgNode? }

/-- The job document of a list of leaves, given its branch protection. -/
def jobDocument (leaves : List Leaf) (protection : ProtectionTree) : JobDocument where
  presubmits := joinedByKey (fun l => (l.fragment.presubmits.map (·.items)).getD []) leaves
  postsubmits := joinedByKey (fun l => (l.fragment.postsubmits.map (·.items)).getD []) leaves
  periodics := periodics leaves
  branchProtection := protection
  keeper := keeper leaves
  plank := { reportTemplates := reportTemplates leaves }

/-- The plugin document of a list of leaves. -/
def pluginDocument (leaves : List Leaf) : PluginDocument where
  plugins := distinctByKey (·.fragment.pluginNames) leaves
  externalPlugins := distinctByKey (fun l => itemsOf l.fragment.externalPlugins) leaves
  approve := leaves.filterMap fun l => l.fragment.approve.map (ApproveEntry.ofRules l.key)
  lgtm := leaves.filterMap fun l => l.fragment.lgtm.map (LgtmEntry.ofRules l.key)
  triggers := leaves.filterMap fun l => l.fragment.trigger.map (TriggerEntry.ofRules l.key)
  welcome := (leaves.flatMap Leaf.welcomes).foldl addWelcome []
  configUpdater := { maps := published leaves }

end Compile

/-- The documents of a list of leaves. -/
def compile (leaves : List Leaf) : Except CompileError Documents := do
  leaves.forM Leaf.checkNames
  let protection ← Compile.protectionTree leaves
  return {
    jobs := Compile.jobDocument leaves protection
    plugins := Compile.pluginDocument leaves }

end SchedulerPolicy
