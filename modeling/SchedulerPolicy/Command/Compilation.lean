import SchedulerPolicy.Command.Run
import SchedulerPolicy.Report

/-!
# Compiling a directory

A compilation holds the texts of the two documents and the report on them. It depends on nothing but
the settings and the resources (`Compilation.ofResources`); only when it is complete are its files
written (`generateFiles`).
-/

namespace SchedulerPolicy

/-- The name of the file that holds the job document. -/
def jobsFileName : String := "config.yaml"

/-- The name of the file that holds the plugin document. -/
def pluginsFileName : String := "plugins.yaml"

/-- The texts of compiled documents by file name, and the report on them. -/
structure Compilation where
  texts : List (String × String)
  report : Report

namespace Compilation

/-- The keys of the repositories that have no leaf. -/
def skipped (repositories : List SourceRepository) (leaves : List Leaf) : List String :=
  (repositories.map SourceRepository.key).filter fun key => !leaves.any (·.key == key)

/-- The compilation of a set of resources. -/
def ofResources (e : EffectiveSettings) (r : ResourceSet) : Except RunError Compilation := do
  let environment := r.teamEnvironment? e.settings.defaultScheduler
  let leaves ← (generate r.repositories r.groups r.schedulers environment
    e.settings.bootstrap).mapError .resolve
  let documents ← (compile leaves).mapError .compile
  -- both texts are there before the first file is written
  let texts := [
    (jobsFileName, Yaml.print (write documents.jobs)),
    (pluginsFileName, Yaml.print (write documents.plugins))]
  return {
    texts
    report := {
      repositories := r.repositories.length
      leaves := leaves.length
      skipped := skipped r.repositories leaves
      sources := e.sources
      outputs := texts.map fun t => .of t.1 t.2 } }

/-- The files of a compilation in a directory, the report last. -/
def files (c : Compilation) (dir : String) : List (String × String) :=
  (c.texts ++ [(Report.fileName, c.report.text)]).map fun t => (Path.join dir t.1, t.2)

end Compilation

/-- Compiles the resources below the directory that the settings name, and writes the documents and
the report. -/
def generateFiles {m : Type → Type} [Monad m] [FileAccess m] (e : EffectiveSettings) :
    RunT m Report := do
  let resources ← RunT.loadResources e.settings.resourcesDir
  let compilation ← RunT.ofExcept (Compilation.ofResources e resources)
  RunT.writeFiles (compilation.files e.settings.outputDir)
  return compilation.report

/-- What is said about a compilation on the standard output: the counts, the repositories without a
leaf, and the beginnings of the digests. -/
def Report.summary (r : Report) (dir : String) : String :=
  let compiled := "Compiled " ++ toString r.leaves ++ " of " ++ toString r.repositories ++
    " repositories into " ++ dir ++ "\n"
  let skipped := r.skipped.map fun key => "  skipped " ++ key ++ " (no scheduler applies)\n"
  let outputs := r.outputs.map fun o =>
    "  " ++ String.ofList (o.sha256.toList.take 12) ++ "  " ++ o.path ++ "\n"
  String.join (compiled :: skipped ++ outputs)

end SchedulerPolicy
