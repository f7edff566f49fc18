import SchedulerPolicy.Document.Compiled

/-!
# Recovering schedulers from documents

Two documents that nobody compiled, say because they were kept by hand, come apart into schedulers
and repositories from which they can be compiled again (`recover`). There is one scheduler for
every repository that the documents name under a key, and one, `default`, for all that is not tied
to a repository.

Keys are checked first. A key of a map is `org/repo`, or in some sections an organisation alone,
whose entry then counts for every repository of the organisation. A node of a tree has to have a
key that splits into the very organisation and repository that the node stands under. The first key
that fails, in the order of `mentions`, fails the whole.

What a document cannot say is not recovered: flags that replace, and scopes other than these two.
-/

namespace SchedulerPolicy

/-- The sections of the documents whose keys name repositories. -/
inductive KeyedSection where
  | presubmits
  | postsubmits
  | plugins
  | externalPlugins
  | mergeMethod
  | contextOptions
  | branchProtection
deriving DecidableEq, Repr

/-- The name of a section in the documents. -/
def KeyedSection.name : KeyedSection → String
  | .presubmits => "presubmits"
  | .postsubmits => "postsubmits"
  | .plugins => "plugins"
  | .externalPlugins => "external_plugins"
  | .mergeMethod => "keeper.merge_method"
  | .contextOptions => "keeper.context_options"
  | .branchProtection => "branch-protection"

/-- A key that names no repository. -/
structure MalformedKey where
  place : KeyedSection
  key : String
deriving DecidableEq, Repr

/-- The error in words. -/
def MalformedKey.message (e : MalformedKey) : String :=
  "malformed repository key '" ++ e.key ++ "' in " ++ e.place.name ++ ": expected 'org/repo'"

/-- A place in the documents that names a repository or an organisation. -/
inductive Mention where
  /-- A key of a map. -/
  | entry (place : KeyedSection) (key : String)
  /-- A node of a tree. -/
  | node (place : KeyedSection) (org repo : String)
deriving DecidableEq, Repr

namespace Mention

/-- Whether a key of a section may be an organisation alone. -/
def allowsOrg : KeyedSection → Bool
  | .plugins | .externalPlugins | .mergeMethod => true
  | _ => false

/-- Whether a key is an organisation alone. -/
def isOrg (key : String) : Bool := !key.toList.contains '/' && !Text.isBlank key

/-- The repository that is named, or `none` when it is an organisation. -/
def repository? : Mention → Except MalformedKey (Option (String × String))
  | .entry place key =>
    match RepoKey.split? key with
    | some pair => .ok (some pair)
    | none => if allowsOrg place && isOrg key then .ok none else .error { place, key }
  | .node place org repo =>
    -- a slash in the repository moves the split, and an empty side leaves none
    let key := RepoKey.join org repo
    if RepoKey.split? key = some (org, repo) then .ok (some (org, repo))
    else .error { place, key }

end Mention

namespace Documents

/-- Every place that names a repository by a key, section by section and in the order of keys. -/
def mentions (d : Documents) : List Mention :=
  d.jobs.presubmits.keys.map (.entry .presubmits) ++
  d.jobs.postsubmits.keys.map (.entry .postsubmits) ++
  d.plugins.plugins.keys.map (.entry .plugins) ++
  d.plugins.externalPlugins.keys.map (.entry .externalPlugins) ++
  d.jobs.keeper.mergeMethod.keys.map (.entry .mergeMethod) ++
  (d.jobs.keeper.contextOptions.orgs.entries.flatMap fun e =>
    e.2.repos.keys.map (.node .contextOptions e.1)) ++
  (d.jobs.branchProtection.orgs.entries.flatMap fun e =>
    e.2.repos.keys.map (.node .branchProtection e.1))

/-- The repositories that the documents name, by key. -/
def repositories (d : Documents) : Except MalformedKey (Keyed (String × String)) := do
  let found ← d.mentions.mapM Mention.repository?
  return Keyed.ofList ((found.filterMap id).map fun r => (RepoKey.join r.1 r.2, r))

end Documents

/-! ### Fragments -/

namespace Recover

/-- The rules of a node, unless they say nothing. -/
def rules? (r : WireRules) : Option BranchRules := if r.isEmpty then none else some r.toRules

/-- The policy of the team: periodic jobs, and what is said in general. -/
def teamFragment (d : JobDocument) : Fragment where
  periodics := if d.periodics.isEmpty then none else some { items := d.periodics }
  attachments := (d.plank.reportTemplates.get? everyRepository).map fun url =>
    { items := [{ name := reportTemplateAttachment, urls := [url] }] }
  merger :=
    if d.keeper.hasGlobalSettings then
      some {
        syncPeriod := d.keeper.syncPeriod
        statusUpdatePeriod := d.keeper.statusUpdatePeriod
        targetUrl := d.keeper.targetUrl
        prStatusBaseUrl := d.keeper.prStatusBaseUrl
        blockerLabel := d.keeper.blockerLabel
        squashLabel := d.keeper.squashLabel
        maxGoroutines := d.keeper.maxGoroutines }
    else none
  policy :=
    let protection := d.branchProtection
    if protection.protectTestedRepos.isNone && protection.policy.isEmpty then none
    else
      some {
        protectTested := protection.protectTestedRepos
        policy := rules? protection.policy }

/-- The jobs of a repository, unless there are none. -/
def jobSet? (jobs : Keyed (List Job)) (key : String) : Option JobSet :=
  match jobs.get? key with
  | some (job :: others) => some { items := job :: others }
  | _ => none

/-- The entries of a repository, followed by the missing ones of its organisation. -/
def withOrgEntries {α : Type} [BEq α] (m : Keyed (List α)) (key org : String) : List α :=
  appendMissing ((m.get? key).getD []) ((m.get? org).getD [])

/-- The branch protection of a repository. -/
def protection? (tree : ProtectionTree) (org repo : String) : Option Protection :=
  match tree.repo? org repo with
  | none => none
  | some node =>
    let policy := rules? node.policy
    let branches := if node.branches.isEmpty then none else some (node.branches.map (·.toRules))
    if policy.isNone && branches.isNone then none else some { policy, branches }

/-- The merge-queue settings of a repository. Its queries lose their repositories. -/
def mergeRules? (k : Keeper) (key org repo : String) : Option MergeRules :=
  let queries := (k.queries.filter (·.repos.contains key)).map Query.search
  let found : MergeRules := {
    mergeMethod := (k.mergeMethod.get? key).or (k.mergeMethod.get? org)
    contextPolicy := (k.contextOptions.repo? org repo).map (·.toRules)
    queries := if queries.isEmpty then none else some queries }
  if found == {} then none else some found

/-- The policy of a repository. The published files go to the repositories with the plugin that
publishes them. -/
def repositoryFragment (d : Documents) (key org repo : String) : Fragment :=
  let names := withOrgEntries d.plugins.plugins key org
  let files := d.plugins.configUpdater.maps
  let welcome := (d.plugins.welcome.filter (·.names key)).map fun w =>
    ({ messageTemplate := w.messageTemplate } : WelcomeMessage)
  { presubmits := jobSet? d.jobs.presubmits key
    postsubmits := jobSet? d.jobs.postsubmits key
    policy := protection? d.jobs.branchProtection org repo
    plugins := listOf names
    externalPlugins := listOf (withOrgEntries d.plugins.externalPlugins key org)
    approve := (d.plugins.approve.find? (·.names key)).map (·.toRules)
    lgtm := (d.plugins.lgtm.find? (·.names key)).map (·.toRules)
    trigger := (d.plugins.triggers.find? (·.names key)).map (·.toRules)
    configUpdater :=
      if names.contains configUpdaterPlugin && !files.isEmpty then some { map := some files }
      else none
    merger := mergeRules? d.jobs.keeper key org repo
    welcome := listOf welcome }

end Recover

/-! ### Names -/

/-- A name for the resources of a repository: lower case, with every separator turned into `-`. -/
def resourceName (org repo : String) : String :=
  let separatorToDash (c : Char) : Char := if c = '/' ∨ c = '.' ∨ c = '_' then '-' else c
  String.ofList ((Text.lowercase (org ++ "-" ++ repo)).toList.map separatorToDash)

/-- The name with a number behind it, from 2 on. -/
def numberedName (base : String) (i : Nat) : String := base ++ "-" ++ toString (i + 2)

/-- A name that is not taken: the name itself or the first free one of those with a number behind
it. Among as many numbers as there are names taken one is free. -/
def freeName {α : Type} (taken : Keyed α) (base : String) : String :=
  if taken.contains base then
    let numbered := (List.range taken.entries.length).map (numberedName base)
    (numbered.find? fun name => !taken.contains name).getD base
  else base

/-! ### Schedulers and repositories -/

/-- The name of the scheduler of the team. -/
def defaultSchedulerName : String := "default"

/-- Schedulers and repositories that documents come from. -/
structure Recovered where
  schedulers : Keyed Fragment
  repositories : List SourceRepository
  /-- The name of the scheduler of the team. -/
  defaultScheduler : String
deriving BEq

namespace Recovered

/-- What is recovered before any repository is looked at. -/
def ofTeam (d : JobDocument) : Recovered where
  schedulers := Keyed.ofList [(defaultSchedulerName, Recover.teamFragment d)]
  repositories := []
  defaultScheduler := defaultSchedulerName

/-- Adds a repository, and its scheduler under a name that is not taken. -/
def addRepository (d : Documents) (r : Recovered) (key org repo : String) : Recovered :=
  let name := freeName r.schedulers (resourceName org repo)
  { r with
    schedulers := r.schedulers.insert name (Recover.repositoryFragment d key org repo)
    repositories := r.repositories ++ [SourceRepository.ofParts name org repo (some name)] }

/-- The schedulers as resources, in the order of names. -/
def schedulerResources (r : Recovered) : List Scheduler :=
  r.schedulers.entries.map fun e => Scheduler.ofFragment e.1 e.2

/-- Schedulers, repositories and the name of the team's scheduler, as a value. -/
def toValue (r : Recovered) : Value :=
  .record <| field "schedulers" r.schedulers ++ field "repositories" r.repositories ++
    field "default_scheduler" r.defaultScheduler

end Recovered

/-- The schedulers and repositories that documents come from, the repositories in the order of
keys. -/
def recover (d : Documents) : Except MalformedKey Recovered := do
  let found ← d.repositories
  return found.entries.foldl (fun r e => r.addRepository d e.1 e.2.1 e.2.2) (.ofTeam d.jobs)

end SchedulerPolicy
