import SchedulerPolicy.Command.Run

/-!
# Importing documents

Two documents that were written by other means are taken over as resources: one file for every
scheduler and one for every repository. The `dev` environment, when its file is given, is then made
to refer to the scheduler of the team.
-/

namespace SchedulerPolicy

/-- Where to find the documents, where the resources go, and the file of the environment. -/
structure ImportPaths where
  jobs : String
  plugins : String
  output : String := "."
  environment : Option String := none
deriving DecidableEq, Inhabited

/-- The file of a resource, in the directory of its kind. -/
def resourceFile {α : Type} [Schema α] (dir : String) (r : Resource α) : String × String :=
  (Path.join dir (r.name ++ ".yaml"), Yaml.print (write r))

/-- The files of recovered resources in a directory, those of the schedulers first. -/
def Recovered.files (r : Recovered) (dir : String) : List (String × String) :=
  r.schedulerResources.map (resourceFile (Path.join dir "schedulers")) ++
    r.repositories.map (resourceFile (Path.join dir "repositories"))

section

variable {m : Type → Type} [Monad m] [FileAccess m]

/-- Makes the environment in a file refer to another default scheduler. -/
def pointEnvironment (path scheduler : String) : RunT m Unit := do
  let e : Environment ← RunT.readDocument path
  RunT.writeFile path (Yaml.print (write (Environment.withDefaultScheduler e scheduler)))

/-- Takes over two documents. -/
def importDocuments (paths : ImportPaths) : RunT m Recovered := do
  let jobs : JobDocument ← RunT.readDocument paths.jobs
  let plugins : PluginDocument ← RunT.readDocument paths.plugins
  let recovered ← RunT.ofExcept ((recover { jobs, plugins }).mapError .malformedKey)
  RunT.writeFiles (recovered.files paths.output)
  if let some path := paths.environment then
    pointEnvironment path recovered.defaultScheduler
  return recovered

end

/-- What is said about an import on the standard output. -/
def Recovered.summary (r : Recovered) (paths : ImportPaths) : String :=
  "Imported " ++ toString r.repositories.length ++ " repositories and " ++
    toString r.schedulers.entries.length ++ " schedulers into " ++ paths.output ++ "\n" ++
    (if paths.environment.isSome then "Default scheduler: " ++ r.defaultScheduler ++ "\n" else "")

end SchedulerPolicy
