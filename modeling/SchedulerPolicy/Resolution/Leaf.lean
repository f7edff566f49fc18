import SchedulerPolicy.Resolution.Bootstrap
import SchedulerPolicy.Resolution.Chain
import SchedulerPolicy.Resolution.GitUrl
import SchedulerPolicy.Text.Lowercase

/-!
# Leaves

Resolution turns the resources of a team into one leaf for every repository: the repository with its
effective fragment. A repository about which no scope has an opinion has no leaf.

The repository that the environment's source URL points at is the boot repository; its chain ends in
the bootstrap injection. It is recognised without regard to the case of ASCII letters.
-/

namespace SchedulerPolicy

/-- A repository and its effective fragment. -/
structure Leaf where
  org : String
  repo : String
  fragment : Fragment
deriving BEq

namespace Leaf

/-- The key of the repository. -/
def key (l : Leaf) : String := RepoKey.join l.org l.repo

/-- A leaf is read and written with its fragment. -/
instance : Schema Leaf where
  read x := do
    let fs ← Fields.ofReadable ["org", "repo", "fragment"] x
    return {
      org := ← fs.required "org"
      repo := ← fs.required "repo"
      fragment := ← fs.required "fragment" }
  write l := .record <| field "org" l.org ++ field "repo" l.repo ++ field "fragment" l.fragment

end Leaf

/-- Why there are no leaves. -/
inductive ResolveError where
  /-- There is no repository. -/
  | noRepositories
  /-- The schedulers of a repository do not come down to one fragment. -/
  | merge (repository : String) (cause : AmbiguousJob)
deriving DecidableEq, Repr

/-- The error in words. -/
def ResolveError.message : ResolveError → String
  | .noRepositories => "no source repositories to resolve"
  | .merge repository cause =>
    "failed to merge schedulers for " ++ repository ++ ": " ++ cause.message

/-- What every repository is resolved against. -/
structure Resolver where
  schedulers : SchedulerIndex
  groups : List SourceRepositoryGroup
  teamDefault : Option String
  /-- The organisation and the name of the boot repository. -/
  boot : Option (String × String)
  injection : Fragment

namespace Resolver

/-- The resolver of a team's resources. -/
def ofResources (groups : List SourceRepositoryGroup) (schedulers : List Scheduler)
    (environment : Option Environment) (bootstrap : Bootstrap) : Resolver where
  schedulers := SchedulerIndex.ofList schedulers
  groups := groups
  teamDefault := environment.bind Environment.defaultScheduler?
  boot := (environment.bind Environment.url?).bind GitUrl.parse?
  injection := bootstrap.fragment

/-- Whether a repository is the boot repository. -/
def isBoot (r : Resolver) (repository : SourceRepository) : Bool :=
  match r.boot with
  | some (org, repo) =>
    Text.eqIgnoringAsciiCase org repository.spec.org &&
      Text.eqIgnoringAsciiCase repo repository.spec.repo
  | none => false

/-- Announces the scheduler of a group, if the group refers to one. -/
def announceGroup (b : ChainBuilder) (group : SourceRepositoryGroup) : ChainBuilder :=
  match SourceRepositoryGroup.scheduler? group with
  | some scheduler => b.withGroup group.name scheduler
  | none => b

/-- The chain of a repository, lowest precedence first. -/
def chain (r : Resolver) (repository : SourceRepository) : List ChainLink :=
  let builder : ChainBuilder := { schedulers := r.schedulers }
  let builder := builder.withTeam r.teamDefault
  let members := r.groups.filter (SourceRepositoryGroup.contains · repository.name)
  let builder := members.foldl announceGroup builder
  let builder := builder.withRepository (SourceRepository.scheduler? repository)
  (if r.isBoot repository then builder.withBootstrap r.injection else builder).chain

/-- The leaf of a repository; `none` when no scope has an opinion about it. -/
def leaf? (r : Resolver) (repository : SourceRepository) : Except ResolveError (Option Leaf) :=
  match r.chain repository with
  | [] => .ok none
  | chain =>
    match foldChain chain with
    | .ok fragment =>
      .ok (some { org := repository.spec.org, repo := repository.spec.repo, fragment })
    | .error cause => .error (.merge (SourceRepository.key repository) cause)

end Resolver

/-- The leaves of all repositories, sorted by key. The first repository whose schedulers do not come
down to one fragment fails the whole. -/
def generate (repositories : List SourceRepository) (groups : List SourceRepositoryGroup)
    (schedulers : List Scheduler) (environment : Option Environment)
    (bootstrap : Bootstrap := {}) : Except ResolveError (List Leaf) :=
  if repositories.isEmpty then .error .noRepositories
  else do
    let resolver := Resolver.ofResources groups schedulers environment bootstrap
    let leaves ← repositories.mapM resolver.leaf?
    return (leaves.filterMap id).mergeSort fun a b => a.key ≤ b.key

end SchedulerPolicy
