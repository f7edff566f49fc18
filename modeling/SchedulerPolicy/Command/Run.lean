import SchedulerPolicy.Document.Recovered
import SchedulerPolicy.Files.Access
import SchedulerPolicy.ResourceSet
import SchedulerPolicy.Settings.Effective
import SchedulerPolicy.Yaml.Print

/-!
# Runs

A run of a command reads files, writes files and may fail (`RunT`). What it has written before it
fails stays written. The cause of a failure decides the exit code: 2 for schedulers that do not come
down to one fragment, 3 for names that have no place in a document, and 1 for everything else.
-/

namespace SchedulerPolicy

/-- Why a run fails. -/
inductive RunError where
  | settings (cause : SettingsError)
  | file (cause : FileError)
  | resolve (cause : ResolveError)
  | compile (cause : CompileError)
  | malformedKey (cause : MalformedKey)
  /-- A value has no JSON text. -/
  | noText
  | unknownRepository (key : String)
deriving DecidableEq, Repr

namespace RunError

/-- The error in words. -/
def message : RunError → String
  | .settings cause => "configuration error: " ++ cause.message
  | .file cause => cause.message
  | .resolve cause => cause.message
  | .compile cause => cause.message
  | .malformedKey cause => "malformed document: " ++ cause.message
  | .noText => "JSON serialization error: key must be a string"
  | .unknownRepository key => "no SourceRepository for '" ++ key ++ "'"

/-- The exit code of a run that fails. -/
def exitCode : RunError → UInt32
  | .resolve (.merge ..) => 2
  | .compile (.protection ..) => 2
  | .compile (.invalidRepository ..) => 3
  | .malformedKey _ => 3
  | _ => 1

end RunError

/-- A run that has access to files through a monad. -/
abbrev RunT (m : Type → Type) (α : Type) := ExceptT RunError m α

namespace RunT

variable {m : Type → Type} [Monad m] [FileAccess m]

/-- A result, or the failure of the run. -/
def ofExcept {α : Type} (r : Except RunError α) : RunT m α := ExceptT.mk (pure r)

/-- The resources below a path. -/
def loadResources (root : String) : RunT m ResourceSet := do
  match ← (FileAccess.tree? root : m _) with
  | none => throw (.file (.noTree root))
  | some t => ofExcept ((ResourceSet.ofTree root t).mapError .file)

/-- The one document in a file. -/
def readDocument {α : Type} [Schema α] (path : String) : RunT m α := do
  match ← (FileAccess.content path : m _) with
  | .text contents =>
    match (Yaml.read? contents : Option α) with
    | some x => return x
    | none => throw (.file (.malformed path))
  | _ => throw (.file (.unreadable path))

/-- Writes a file. -/
def writeFile (path contents : String) : RunT m Unit := do
  let written ← (FileAccess.write path contents : m Bool)
  if written then return () else throw (.file (.unwritable path))

/-- Writes files in their order, up to the first that cannot be written. -/
def writeFiles : List (String × String) → RunT m Unit
  | [] => return ()
  | (path, contents) :: rest => do
    writeFile path contents
    writeFiles rest

end RunT

end SchedulerPolicy
