import SchedulerPolicy.Command.Program

/-!
# The program on this machine

`main` runs the program on the files of the machine. What it adds to `Program.run` is the access to
them: files are read as texts, a tree is read as far as it can hold resources, and of a link below a
tree nothing is read.
-/

namespace SchedulerPolicy.Machine

/-- The content of a file. -/
def content (path : String) : IO FileContent := do
  try
    return .text (← IO.FS.readFile path)
  catch
    | .noFileOrDirectory .. => return .absent
    | _ => return .unreadable

/-- A file as a tree. -/
def fileTree (path : String) : IO FileTree := do
  match ← content path with
  | .text contents => return .file contents
  | _ => return .unreadable

/-- The tree that stands at a path, without what is hidden and without files other than YAML. -/
partial def tree (path : String) : IO FileTree := do
  let place := (← IO.currentDir) / path
  if ← place.isDir then
    let mut entries := []
    for entry in ← place.readDir do
      let name := entry.fileName
      let below := Path.join path name
      unless Path.isHidden name do
        match (← entry.path.symlinkMetadata).type with
        | .dir => entries := FileTree.setEntry name (← tree below) entries
        | .file =>
          if Path.isYaml name then entries := FileTree.setEntry name (← fileTree below) entries
        | _ => pure ()
    return .directory entries
  else fileTree path

/-- The tree that stands at a path, if anything that can be read does. -/
def tree? (path : String) : IO (Option FileTree) := do
  try
    if ← ((← IO.currentDir) / path).pathExists then return some (← tree path)
    else return none
  catch _ => return none

/-- Writes a file and makes the directories on the way. -/
def write (path contents : String) : IO Bool := do
  try
    let place := (← IO.currentDir) / path
    if let some dir := place.parent then IO.FS.createDirAll dir
    IO.FS.writeFile place contents
    return true
  catch _ => return false

/-- The files of the machine. -/
instance : FileAccess IO where
  content := content
  tree? := tree?
  write := write

end SchedulerPolicy.Machine

/-- Runs the program. -/
def main (arguments : List String) : IO UInt32 := do
  let outcome ← SchedulerPolicy.Program.run (← IO.getEnv "HOME") arguments
  IO.print outcome.output
  IO.eprint outcome.errors
  return outcome.exitCode
