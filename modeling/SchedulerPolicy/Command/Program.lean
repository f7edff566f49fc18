import SchedulerPolicy.Command.Compilation
import SchedulerPolicy.Command.Explanation
import SchedulerPolicy.Command.Import
import SchedulerPolicy.Command.Line

/-!
# The program

`Program.run` is the program as a whole: from the arguments and the home directory to an outcome,
which is an exit code and what goes to the two output streams. It is a definition for any access to
files, and everything that it reads and writes besides goes through that access.

Settings are read before any command, also for commands that need none of them. A run that fails
leaves nothing on the standard output.
-/

namespace SchedulerPolicy

namespace Program

/-- The name and the version of the program. -/
def versionText : String := "gitops-scheduler 0.1.0\n"

/-- How the program is used. -/
def usage : String :=
  "Compile scheduler fragments into pipeline scheduler configuration\n\n" ++
  "Usage: gitops-scheduler [OPTIONS] <COMMAND>\n\n" ++
  "Commands:\n" ++
  "  generate  Resolve every repository and write config.yaml and plugins.yaml\n" ++
  "            [-d, --dir <DIR>] [-o, --output <OUTPUT>]\n" ++
  "  explain   Show a repository's precedence chain and effective fragment\n" ++
  "            -r, --repo <REPO> [-d, --dir <DIR>] [--json]\n" ++
  "  import    Reconstruct schedulers and repositories from existing documents\n" ++
  "            --config-yaml <CONFIG_YAML> --plugins-yaml <PLUGINS_YAML>\n" ++
  "            [-o, --output <OUTPUT>] [--environment <ENVIRONMENT>]\n\n" ++
  "Options:\n" ++
  "  -v, --verbose          Enable debug logging\n" ++
  "  -c, --config <CONFIG>  Path to repo config file (default: .gitops/scheduler.toml)\n" ++
  "  -h, --help             Print help\n" ++
  "  -V, --version          Print version\n"

/-- The path of the host's settings in a home directory. -/
def hostSettingsPath (home : String) : String :=
  Path.join home ".config/gitops-scheduler/config.toml"

/-- The path of the repository's settings when no other is given. -/
def repoSettingsPath : String := ".gitops/scheduler.toml"

/-- The settings that a command gives. -/
def commandLayer : Command → Value
  | .generate dir output => .record (field? "resources_dir" dir ++ field? "output_dir" output)
  | .explain _ dir _ => .record (field? "resources_dir" dir)
  | .importDocuments _ => .record []

/-- What is left of a run. -/
structure Outcome where
  exitCode : UInt32 := 0
  output : String := ""
  errors : String := ""
deriving DecidableEq, Inhabited

section

variable {m : Type → Type} [Monad m] [FileAccess m]

/-- A file of settings. -/
def settingsFile (path : String) : m SettingsFile :=
  return { path, content := ← FileAccess.content path }

/-- The settings of an invocation. -/
def settings (home : Option String) (i : Invocation) : RunT m EffectiveSettings := do
  let host ← (home.mapM fun home => settingsFile (hostSettingsPath home) : m _)
  let repo ← (settingsFile (i.config.getD repoSettingsPath) : m _)
  let layer := commandLayer i.command
  RunT.ofExcept ((EffectiveSettings.ofLayers host (some repo) (some layer)).mapError .settings)

/-- Does what is to be done; the result is what goes to the standard output. -/
def perform (e : EffectiveSettings) : Command → RunT m String
  | .generate _ _ => do
    let report ← generateFiles e
    return report.summary e.settings.outputDir
  | .explain repo _ json => do
    let explanation ← explainRepository e.settings repo
    if json then
      match explanation.toValue.prettyJson? with
      | some text => return text ++ "\n"
      | none => throw .noText
    else return explanation.text
  | .importDocuments paths => do
    let recovered ← importDocuments paths
    return recovered.summary paths

/-- Runs an invocation. -/
def runInvocation (home : Option String) (i : Invocation) : m Outcome := do
  match ← ((settings home i >>= fun e => perform e i.command : RunT m String)).run with
  | .ok output => return { output }
  | .error e => return { exitCode := e.exitCode, errors := "Error: " ++ e.message ++ "\n" }

/-- Runs the program. -/
def run (home : Option String) (arguments : List String) : m Outcome :=
  match CommandLine.ofArguments? arguments with
  | none => return { exitCode := 2, errors := usage }
  | some .help => return { output := usage }
  | some .version => return { output := versionText }
  | some (.run i) => runInvocation home i

end

end Program

end SchedulerPolicy
