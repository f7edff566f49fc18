import SchedulerPolicy.Fragment.Basic
import SchedulerPolicy.RepoKey
import SchedulerPolicy.Text.Blank

/-!
# Resources

The custom resources in which a team keeps its policy: schedulers, which are named fragments, the
repositories and groups of repositories that refer to them, and environments, of which the one
called `dev` carries the team's settings. All have the same envelope and differ in their `spec`.

A reference whose name is blank refers to nothing, and so does a blank URL.
-/

namespace SchedulerPolicy

/-- The version under which every resource is written. -/
def apiVersion : String := "jenkins.io/v1"

/-- The kinds of resource that carry or use policy. -/
inductive Kind where
  | scheduler
  | sourceRepository
  | sourceRepositoryGroup
  | environment
deriving DecidableEq, Repr

/-- The name of a kind in the envelope. -/
def Kind.name : Kind → String
  | .scheduler => "Scheduler"
  | .sourceRepository => "SourceRepository"
  | .sourceRepositoryGroup => "SourceRepositoryGroup"
  | .environment => "Environment"

/-- The name of a resource, with whatever labels it has. -/
structure Metadata where
  name : String
  namespaceName : Option String := none
  labels : Keyed String := ∅
  annotations : Keyed String := ∅
deriving DecidableEq, Inhabited

instance : Schema Metadata where
  read x := do
    let fs ← Fields.ofReadable ["name", "namespace", "labels", "annotations"] x
    return {
      name := ← fs.required "name"
      namespaceName := ← fs.optional "namespace"
      labels := ← fs.getD "labels" ∅
      annotations := ← fs.getD "annotations" ∅ }
  write m := .record <|
    field "name" m.name ++ field? "namespace" m.namespaceName ++
    fieldUnless "labels" m.labels.isEmpty m.labels ++
    fieldUnless "annotations" m.annotations.isEmpty m.annotations

/-- A resource: the envelope and what it holds. -/
structure Resource (α : Type) where
  apiVersion : String
  kind : String
  metadata : Metadata
  spec : α
deriving BEq, Inhabited

namespace Resource

instance {α : Type} [Schema α] : Schema (Resource α) where
  read x := do
    let fs ← Fields.ofReadable ["apiVersion", "kind", "metadata", "spec"] x
    return {
      apiVersion := ← fs.required "apiVersion"
      kind := ← fs.required "kind"
      metadata := ← fs.required "metadata"
      spec := ← fs.required "spec" }
  write r := .record <|
    field "apiVersion" r.apiVersion ++ field "kind" r.kind ++ field "metadata" r.metadata ++
    field "spec" r.spec

/-- A resource of a kind under a name. -/
def ofSpec {α : Type} (kind : Kind) (name : String) (spec : α) : Resource α where
  apiVersion := SchedulerPolicy.apiVersion
  kind := kind.name
  metadata := { name }
  spec := spec

/-- The name of a resource. -/
def name {α : Type} (r : Resource α) : String := r.metadata.name

end Resource

/-- A reference to a resource by name. -/
structure Reference where
  kind : Option String := none
  name : String
deriving DecidableEq, Inhabited

namespace Reference

instance : Schema Reference where
  read x := do
    let fs ← Fields.ofReadable ["kind", "name"] x
    return { kind := ← fs.optional "kind", name := ← fs.required "name" }
  write r := .record <| field? "kind" r.kind ++ field "name" r.name

/-- A reference to a scheduler. -/
def toScheduler (name : String) : Reference := { kind := some Kind.scheduler.name, name }

/-- The name that a reference refers to; a blank one refers to nothing. -/
def target? (r : Option Reference) : Option String :=
  match r with
  | some r => if Text.isBlank r.name then none else some r.name
  | none => none

end Reference

/-! ### Schedulers -/

/-- A fragment under a name. -/
abbrev Scheduler := Resource Fragment

/-- A scheduler of the current version. -/
def Scheduler.ofFragment (name : String) (fragment : Fragment) : Scheduler :=
  .ofSpec .scheduler name fragment

/-! ### Repositories -/

/-- Which repository a resource stands for, and the scheduler that it refers to. -/
structure RepositorySpec where
  org : String
  repo : String
  provider : Option String := none
  scheduler : Option Reference := none
deriving DecidableEq, Inhabited

instance : Schema RepositorySpec where
  read x := do
    let fs ← Fields.ofReadable ["org", "repo", "provider", "scheduler"] x
    return {
      org := ← fs.required "org"
      repo := ← fs.required "repo"
      provider := ← fs.optional "provider"
      scheduler := ← fs.optional "scheduler" }
  write s := .record <|
    field "org" s.org ++ field "repo" s.repo ++ field? "provider" s.provider ++
    field? "scheduler" s.scheduler

/-- A repository. -/
abbrev SourceRepository := Resource RepositorySpec

namespace SourceRepository

/-- A repository of the current version that may refer to a scheduler. -/
def ofParts (name org repo : String) (scheduler : Option String) : SourceRepository :=
  .ofSpec .sourceRepository name { org, repo, scheduler := scheduler.map Reference.toScheduler }

/-- The key of a repository in the documents. -/
def key (r : SourceRepository) : String := RepoKey.join r.spec.org r.spec.repo

/-- The scheduler that a repository refers to. -/
def scheduler? (r : SourceRepository) : Option String := Reference.target? r.spec.scheduler

end SourceRepository

/-! ### Groups -/

/-- The members of a group, and the scheduler that it refers to. -/
structure GroupSpec where
  repositories : List Reference := []
  scheduler : Option Reference := none
deriving DecidableEq, Inhabited

instance : Schema GroupSpec where
  read x := do
    let fs ← Fields.ofReadable ["repositories", "scheduler"] x
    return {
      repositories := ← fs.getD "repositories" []
      scheduler := ← fs.optional "scheduler" }
  write s := .record <| field "repositories" s.repositories ++ field? "scheduler" s.scheduler

/-- A group of repositories. -/
abbrev SourceRepositoryGroup := Resource GroupSpec

namespace SourceRepositoryGroup

/-- Whether a repository, by the name of its resource, is a member. -/
def contains (g : SourceRepositoryGroup) (repository : String) : Bool :=
  g.spec.repositories.any (·.name == repository)

/-- The scheduler that a group refers to. -/
def scheduler? (g : SourceRepositoryGroup) : Option String := Reference.target? g.spec.scheduler

end SourceRepositoryGroup

/-! ### Environments -/

/-- Where the configuration of an environment is kept. -/
structure EnvironmentSource where
  url : Option String := none
deriving DecidableEq, Inhabited

instance : Schema EnvironmentSource where
  read x := do
    let fs ← Fields.ofReadable ["url"] x
    return { url := ← fs.optional "url" }
  write s := .record <| field? "url" s.url

/-- The settings of a team. Keys that are no fields are kept in `extra`. -/
structure TeamSettings where
  defaultScheduler : Option Reference := none
  extra : Keyed Value := ∅
deriving BEq, Inhabited

namespace TeamSettings

/-- The keys of the settings that are fields. -/
def fieldNames : List String := ["defaultScheduler"]

instance : Schema TeamSettings where
  read x := do
    let fs ← Fields.ofReadable fieldNames x
    return {
      defaultScheduler := ← fs.optional "defaultScheduler"
      extra := ← fs.extra fieldNames }
  write s := .record <| field? "defaultScheduler" s.defaultScheduler ++ s.extra.entries

end TeamSettings

/-- Where an environment is kept, and the settings of its team. -/
structure EnvironmentSpec where
  source : EnvironmentSource := {}
  teamSettings : Option TeamSettings := none
deriving BEq, Inhabited

instance : Schema EnvironmentSpec where
  read x := do
    let fs ← Fields.ofReadable ["source", "teamSettings"] x
    return {
      source := ← fs.getD "source" {}
      teamSettings := ← fs.optional "teamSettings" }
  write s := .record <| field "source" s.source ++ field? "teamSettings" s.teamSettings

/-- An environment. -/
abbrev Environment := Resource EnvironmentSpec

namespace Environment

/-- The name of the environment that carries the team's settings. -/
def devName : String := "dev"

/-- The `dev` environment with a source and a default scheduler, either of which may be absent. -/
def dev (url defaultScheduler : Option String) : Environment :=
  .ofSpec .environment devName {
    source := { url }
    teamSettings := defaultScheduler.map fun name =>
      { defaultScheduler := some (Reference.toScheduler name) } }

/-- The URL of the source; a blank one is none. -/
def url? (e : Environment) : Option String :=
  match e.spec.source.url with
  | some url => if Text.isBlank url then none else some url
  | none => none

/-- The default scheduler of the team. -/
def defaultScheduler? (e : Environment) : Option String :=
  match e.spec.teamSettings with
  | some settings => Reference.target? settings.defaultScheduler
  | none => none

/-- The environment with another default scheduler, and all else as it was. -/
def withDefaultScheduler (e : Environment) (name : String) : Environment :=
  { e with spec := { e.spec with
      teamSettings := some
        { e.spec.teamSettings.getD {} with
            defaultScheduler := some (Reference.toScheduler name) } } }

end Environment

end SchedulerPolicy
