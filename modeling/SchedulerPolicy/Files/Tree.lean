import SchedulerPolicy.Files.Path

/-!
# File trees

`FileTree` is what is found below a directory. Paths are looked up in it name by name: a name can
be passed only in a directory, so a path through a file leads nowhere (`FileTree.find?`). Writing a
file makes the directories on the way (`FileTree.write?`) and fails where a file is in the way.

The entries of a directory stand in the order of their names, and writing keeps that order. Hence
`FileTree.yamlFiles` visits the files of a tree in the order of names, each directory as a whole.
-/

namespace SchedulerPolicy

/-- What is found at a path where a file is looked for. -/
inductive FileContent where
  | absent
  /-- Something that is no file that can be read as text. -/
  | unreadable
  | text (contents : String)
deriving DecidableEq, Inhabited

/-- A file, or a directory with everything in it. -/
inductive FileTree where
  | file (contents : String)
  /-- A file that cannot be read as text. -/
  | unreadable
  | directory (entries : List (String × FileTree))

namespace FileTree

instance : Inhabited FileTree := ⟨.directory []⟩

instance : EmptyCollection FileTree := ⟨.directory []⟩

/-- What a tree is when it is looked at as a file. -/
def toContent : FileTree → FileContent
  | .file contents => .text contents
  | _ => .unreadable

/-- What stands under a name in a directory. -/
def child? (t : FileTree) (name : String) : Option FileTree :=
  match t with
  | .directory entries => entries.lookup name
  | _ => none

/-- What stands at a place. -/
def get? : FileTree → List String → Option FileTree
  | t, [] => some t
  | t, name :: names => (t.child? name).bind fun c => c.get? names

/-- Puts something under a name among the entries of a directory. -/
def setEntry (name : String) (t : FileTree) :
    List (String × FileTree) → List (String × FileTree)
  | [] => [(name, t)]
  | (n, u) :: rest =>
    if name < n then (name, t) :: (n, u) :: rest
    else if name = n then (name, t) :: rest
    else (n, u) :: setEntry name t rest

/-- Puts something at a place and makes the directories on the way. -/
def set? (new : FileTree) : List String → FileTree → Option FileTree
  | [], _ => some new
  | name :: names, .directory entries =>
    (set? new names ((entries.lookup name).getD ∅)).map fun t =>
      .directory (setEntry name t entries)
  | _ :: _, _ => none

/-- The place to which names lead. Each name is passed in a directory; one that is not there may be
passed only when it is to be made. -/
def follow? (t : FileTree) (make : Bool) (place : List String) : List String → Option (List String)
  | [] => some place
  | name :: names =>
    match t.get? place with
    | some (.directory _) => t.follow? make (Path.enter place name) names
    | none => if make then t.follow? make (Path.enter place name) names else none
    | some _ => none

/-- What stands at a path. -/
def find? (t : FileTree) (path : String) : Option FileTree :=
  (t.follow? false [] (Path.names path)).bind t.get?

/-- The content of the file at a path. -/
def content (t : FileTree) (path : String) : FileContent :=
  match t.find? path with
  | none => .absent
  | some u => u.toContent

/-- Writes a file and makes the directories on the way; fails when a file is in the way or a
directory is in its place. -/
def write? (t : FileTree) (path contents : String) : Option FileTree := do
  let place ← t.follow? true [] (Path.names path)
  match t.get? place with
  | some (.directory _) => none
  | _ => set? (.file contents) place t

mutual

/-- The files of a tree that can be read, with the names that lead to them from a place. -/
def files (place : List String) : FileTree → List (List String × String)
  | .file contents => [(place, contents)]
  | .unreadable => []
  | .directory entries => entryFiles place entries
termination_by structural t => t

/-- The files below the entries of a directory. -/
def entryFiles (place : List String) : List (String × FileTree) → List (List String × String)
  | [] => []
  | (name, t) :: rest => files (place ++ [name]) t ++ entryFiles place rest
termination_by structural es => es

end

mutual

/-- The YAML files of a tree that stands at a path, with their paths. Below the path, whatever is
hidden is left out. -/
def yamlFiles (path : String) : FileTree → List (String × FileContent)
  | .file contents => if Path.isYaml path then [(path, .text contents)] else []
  | .unreadable => if Path.isYaml path then [(path, .unreadable)] else []
  | .directory entries => entryYamlFiles path entries
termination_by structural t => t

/-- The YAML files below the entries of a directory. -/
def entryYamlFiles (dir : String) : List (String × FileTree) → List (String × FileContent)
  | [] => []
  | (name, t) :: rest =>
    (if Path.isHidden name then [] else yamlFiles (Path.join dir name) t) ++
      entryYamlFiles dir rest
termination_by structural es => es

end

end FileTree

end SchedulerPolicy
