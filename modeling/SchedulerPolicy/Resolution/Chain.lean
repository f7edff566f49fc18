import SchedulerPolicy.Fragment.Merge
import SchedulerPolicy.Resource

/-!
# Precedence chains

The policy of a repository is a chain of fragments on four levels, lowest first: the team's default
scheduler, the schedulers of the groups that the repository belongs to, its own scheduler, and the
bootstrap injection. A level whose scheduler does not exist is left out.

`ChainBuilder` collects the links in whatever order they are announced; every link has its own slot,
so the order of announcements on different levels does not matter. Within the group level the first
group announced ends up closest to the repository.
-/

namespace SchedulerPolicy

/-- The scope that a link of a chain comes from, in ascending precedence. -/
inductive Level where
  | team
  | group
  | repository
  | bootstrap
deriving DecidableEq, Repr

namespace Level

/-- The level as it is written in documents. -/
def name : Level → String
  | .team => "team"
  | .group => "group"
  | .repository => "repository"
  | .bootstrap => "bootstrap"

/-- The level as it is written in headings. -/
def title : Level → String
  | .team => "Team"
  | .group => "Group"
  | .repository => "Repository"
  | .bootstrap => "Bootstrap"

/-- The place of a level in the order of precedence. -/
def rank : Level → Nat
  | .team => 0
  | .group => 1
  | .repository => 2
  | .bootstrap => 3

end Level

/-- One fragment of a chain, and where it comes from. -/
structure ChainLink where
  level : Level
  /-- The name of the scheduler, or `bootstrap`. -/
  source : String
  /-- The name of the group, on the group level. -/
  group : Option String := none
  fragment : Fragment
deriving BEq

/-- A link as a value. -/
def ChainLink.toValue (l : ChainLink) : Value :=
  .record <| field "level" l.level.name ++ field "source" l.source ++ field? "group" l.group ++
    field "fragment" l.fragment

/-- Schedulers by name. -/
abbrev SchedulerIndex := Keyed Fragment

/-- The index of a list of schedulers; of schedulers with one name the last counts. -/
def SchedulerIndex.ofList (schedulers : List Scheduler) : SchedulerIndex :=
  Keyed.ofList (schedulers.map fun s => (s.name, s.spec))

/-- A chain in the making, with a slot for every level. -/
structure ChainBuilder where
  schedulers : SchedulerIndex
  team : Option ChainLink := none
  groups : List ChainLink := []
  own : Option ChainLink := none
  bootstrap : Option ChainLink := none

namespace ChainBuilder

/-- The link to a scheduler, if the scheduler exists. -/
def link? (b : ChainBuilder) (level : Level) (scheduler : String) (group : Option String := none) :
    Option ChainLink :=
  (b.schedulers.get? scheduler).map fun fragment => { level, source := scheduler, group, fragment }

/-- Announces the team's default scheduler. Without a name nothing changes; a scheduler that does
not exist empties the slot. -/
def withTeam (b : ChainBuilder) : Option String → ChainBuilder
  | none => b
  | some scheduler => { b with team := b.link? .team scheduler }

/-- Announces the scheduler of a group, below the groups announced before. -/
def withGroup (b : ChainBuilder) (group scheduler : String) : ChainBuilder :=
  match b.link? .group scheduler (some group) with
  | some link => { b with groups := link :: b.groups }
  | none => b

/-- Announces the repository's own scheduler, under the same rules as the team's. -/
def withRepository (b : ChainBuilder) : Option String → ChainBuilder
  | none => b
  | some scheduler => { b with own := b.link? .repository scheduler }

/-- Announces the bootstrap injection. -/
def withBootstrap (b : ChainBuilder) (fragment : Fragment) : ChainBuilder :=
  { b with bootstrap := some { level := .bootstrap, source := "bootstrap", fragment } }

/-- The chain, lowest precedence first. -/
def chain (b : ChainBuilder) : List ChainLink :=
  b.team.toList ++ b.groups ++ b.own.toList ++ b.bootstrap.toList

end ChainBuilder

/-- The fragment that groups next to each other come down to; nothing without groups. -/
def foldPeers (groups : List Fragment) : Filled (List Fragment) :=
  if groups.isEmpty then .ok [] else (fun f => [f]) <$> Fragment.buildPeers groups

/-- The fragments of a chain, each run of groups folded into one. `groups` are those of the run that
has begun. -/
def foldGroups (groups : List Fragment) : List ChainLink → Filled (List Fragment)
  | [] => foldPeers groups
  | l :: rest =>
    if l.level == .group then foldGroups (groups ++ [l.fragment]) rest
    else do
      let peers ← foldPeers groups
      let above ← foldGroups [] rest
      return peers ++ l.fragment :: above

/-- The effective fragment of a chain. Groups are peers: they come down to one fragment first, which
takes their place in the chain. -/
def foldChain (chain : List ChainLink) : Filled Fragment := foldGroups [] chain >>= Fragment.build

end SchedulerPolicy
