import SchedulerPolicy.Files.Tree
import SchedulerPolicy.Resource
import SchedulerPolicy.Yaml.Node

/-!
# Resource sets

The resources of a team lie in YAML files below one directory, several to a file if need be and in
whatever files the team likes. `ResourceSet.ofFiles` gathers them. A document that is no resource of
a known kind is passed over; one of a known kind has to fit its type, and a file that is malformed
anywhere fails the whole.

What is gathered is sorted by name, so the layout of the files can be seen only between resources of
one kind under one name.
-/

namespace SchedulerPolicy

/-- A resource of some kind. -/
inductive TeamResource where
  | scheduler (s : Scheduler)
  | repository (r : SourceRepository)
  | group (g : SourceRepositoryGroup)
  | environment (e : Environment)
deriving BEq

namespace TeamResource

/-- The resource that a document holds, when it says that it is one of a known kind. -/
def ofDocument? (document : Value) : Decoded (Option TeamResource) :=
  match (document.get? "kind").bind Value.text? with
  | none => .ok none
  | some kind =>
    if kind = Kind.scheduler.name then (some ∘ .scheduler) <$> (read document : Decoded Scheduler)
    else if kind = Kind.sourceRepository.name then
      (some ∘ .repository) <$> (read document : Decoded SourceRepository)
    else if kind = Kind.sourceRepositoryGroup.name then
      (some ∘ .group) <$> (read document : Decoded SourceRepositoryGroup)
    else if kind = Kind.environment.name then
      (some ∘ .environment) <$> (read document : Decoded Environment)
    else .ok none

/-- The scheduler that a resource is. -/
def scheduler? : TeamResource → Option Scheduler
  | .scheduler s => some s
  | _ => none

/-- The repository that a resource is. -/
def repository? : TeamResource → Option SourceRepository
  | .repository r => some r
  | _ => none

/-- The group that a resource is. -/
def group? : TeamResource → Option SourceRepositoryGroup
  | .group g => some g
  | _ => none

/-- The environment that a resource is. -/
def environment? : TeamResource → Option Environment
  | .environment e => some e
  | _ => none

end TeamResource

/-- Why a file or a directory cannot be used. -/
inductive FileError where
  /-- There is nothing where resources are searched. -/
  | noTree (root : String)
  | unreadable (path : String)
  /-- A file is no YAML, or a document in it does not fit its type. -/
  | malformed (path : String)
  | unwritable (path : String)
deriving DecidableEq, Repr

/-- The error in words, as far as they do not depend on the machine or on a parser. -/
def FileError.message : FileError → String
  | .noTree root => "cannot walk " ++ root
  | .unreadable path => "IO error at " ++ path
  | .malformed path => "invalid YAML in " ++ path
  | .unwritable path => "IO error at " ++ path

/-- The resources of a team, those of each kind sorted by name. -/
structure ResourceSet where
  schedulers : List Scheduler := []
  repositories : List SourceRepository := []
  groups : List SourceRepositoryGroup := []
  environments : List Environment := []
deriving BEq

namespace ResourceSet

/-- Sorts resources by name; those of one name keep their order. -/
def sortByName {α : Type} (rs : List (Resource α)) : List (Resource α) :=
  rs.mergeSort fun a b => a.name ≤ b.name

/-- The set of some resources. -/
def ofList (rs : List TeamResource) : ResourceSet where
  schedulers := sortByName (rs.filterMap (·.scheduler?))
  repositories := sortByName (rs.filterMap (·.repository?))
  groups := sortByName (rs.filterMap (·.group?))
  environments := sortByName (rs.filterMap (·.environment?))

/-- The resources in a file. -/
def inFile (path : String) (content : FileContent) : Except FileError (List TeamResource) :=
  match content with
  | .text contents =>
    match Yaml.values? contents with
    | some documents =>
      match documents.mapM TeamResource.ofDocument? with
      | .ok found => .ok (found.filterMap id)
      | .error _ => .error (.malformed path)
    | none => .error (.malformed path)
  | _ => .error (.unreadable path)

/-- The set of the resources in some files. The first file that cannot be used fails the whole. -/
def ofFiles (files : List (String × FileContent)) : Except FileError ResourceSet := do
  let found ← files.mapM fun f => inFile f.1 f.2
  return ofList found.flatten

/-- The set of the resources in the YAML files of a tree that stands at a path. -/
def ofTree (root : String) (t : FileTree) : Except FileError ResourceSet :=
  ofFiles (t.yamlFiles root)

/-- The environment that carries the settings of the team. -/
def dev? (r : ResourceSet) : Option Environment :=
  r.environments.find? (·.name == Environment.devName)

/-- The environment against which repositories are resolved. A fallback takes the place of a default
scheduler that the team does not name. -/
def teamEnvironment? (r : ResourceSet) : (fallback : Option String) → Option Environment
  | none => r.dev?
  | some scheduler =>
    let e := r.dev?.getD (Environment.dev none none)
    some (if (Environment.defaultScheduler? e).isSome then e
      else Environment.withDefaultScheduler e scheduler)

end ResourceSet

end SchedulerPolicy
