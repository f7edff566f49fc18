import SchedulerPolicy.Files.Tree

/-!
# Access to files

What the commands need of a file system is little: the content of a file, the tree below a path, and
to write a file. `FileAccess` is a monad that offers these, so that a command is one definition for
the file system of the machine and for a tree in memory. The tree in memory is the state of
`StateM FileTree`, and what is proved about commands is proved there.
-/

namespace SchedulerPolicy

/-- A monad in which files are read and written. Paths start at the working directory. -/
class FileAccess (m : Type → Type) where
  /-- The content of a file. -/
  content : String → m FileContent
  /-- The tree that stands at a path, if anything does. -/
  tree? : String → m (Option FileTree)
  /-- Writes a file and makes the directories on the way; says whether it is written. -/
  write : String → String → m Bool

/-- A write that fails leaves the tree as it is. -/
instance : FileAccess (StateM FileTree) where
  content path := return (← get).content path
  tree? path := return (← get).find? path
  write path contents := do
    match (← get).write? path contents with
    | some t =>
      set t
      return true
    | none => return false

end SchedulerPolicy
