import SchedulerPolicy.Command.Run
import SchedulerPolicy.Json

/-!
# Explaining a repository

An explanation shows how the policy of one repository comes about: its chain, the effective
fragment, and whether it is the boot repository. The repository is named by its key, without regard
to the case of ASCII letters; of several the first counts.
-/

namespace SchedulerPolicy

/-- How the policy of a repository comes about. -/
structure Explanation where
  repository : String
  isBoot : Bool
  chain : List ChainLink
  effective : Fragment
deriving BEq

namespace Explanation

/-- The explanation of the repository with a key. -/
def ofResources (s : Settings) (r : ResourceSet) (key : String) : Except RunError Explanation :=
  let named (repository : SourceRepository) : Bool :=
    Text.eqIgnoringAsciiCase (SourceRepository.key repository) key
  match r.repositories.find? named with
  | none => .error (.unknownRepository key)
  | some repository => do
    let resolver := Resolver.ofResources r.groups r.schedulers
      (r.teamEnvironment? s.defaultScheduler) s.bootstrap
    let leaf ← (resolver.leaf? repository).mapError .resolve
    return {
      repository := SourceRepository.key repository
      isBoot := resolver.isBoot repository
      chain := resolver.chain repository
      effective := (leaf.map (·.fragment)).getD ∅ }

/-- An explanation as a value. -/
def toValue (e : Explanation) : Value :=
  .record <|
    field "repository" e.repository ++ field "boot_repository" e.isBoot ++
    [("chain", .seq (e.chain.map ChainLink.toValue))] ++ field "effective" e.effective

/-- A link on a line of its own, with its number. -/
def linkLine (number : Nat) (l : ChainLink) : String :=
  let group := match l.group with
    | some group => " (group " ++ group ++ ")"
    | none => ""
  "  " ++ toString number ++ ". " ++ l.level.title ++ ": " ++ l.source ++ group ++ "\n"

/-- The lines of a chain, with numbers from a number on. -/
def linkLines (number : Nat) : List ChainLink → List String
  | [] => []
  | l :: rest => linkLine number l :: linkLines (number + 1) rest

/-- An explanation in words. -/
def text (e : Explanation) : String :=
  let heading := "Repository: " ++ e.repository ++ "\n" ++
    (if e.isBoot then "Boot repository: yes\n" else "")
  if e.chain.isEmpty then heading ++ "No schedulers apply.\n"
  else heading ++ "Precedence chain (lowest first):\n" ++ String.join (linkLines 1 e.chain) ++
    "\nEffective fragment:\n" ++ Yaml.print (write e.effective)

end Explanation

/-- Explains a repository from the resources below the directory that the settings name. -/
def explainRepository {m : Type → Type} [Monad m] [FileAccess m] (s : Settings) (key : String) :
    RunT m Explanation := do
  let resources ← RunT.loadResources s.resourcesDir
  RunT.ofExcept (Explanation.ofResources s resources key)

end SchedulerPolicy
