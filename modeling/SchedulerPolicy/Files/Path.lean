import SchedulerPolicy.Text.Segments

/-!
# Paths

A path is a text whose slashes separate names. Most names stand for themselves; the empty name and
`.` stay where they are, and `..` goes up. A path that begins with a slash starts elsewhere, and its
first name is that slash.

Two things are told from a name: whether it is hidden, which is so when it begins with a period, and
whether it is that of a YAML file.
-/

namespace SchedulerPolicy.Path

/-- The path of a name in a directory. -/
def join (dir name : String) : String :=
  if dir.isEmpty || dir.toList.getLast? == some '/' then dir ++ name else dir ++ "/" ++ name

/-- The names along a path. -/
def names (path : String) : List String :=
  match Text.segments path.toList with
  | [] :: s :: rest => "/" :: (s :: rest).map String.ofList
  | parts => parts.map String.ofList

/-- The last name along a path. -/
def lastName (path : String) : String := (names path).getLast?.getD ""

/-- The place that a name leads to. A place is given by the names that lead to it from the working
directory, with none that stays or goes up. -/
def enter (place : List String) (name : String) : List String :=
  if name = "" ∨ name = "." then place
  else if name = ".." then place.dropLast
  else place ++ [name]

/-- Whether a name is hidden. -/
def isHidden (name : String) : Bool := name.toList.head? == some '.'

/-- Whether a name ends in a period and an extension, with something in front of them. -/
def hasExtension (extension name : String) : Bool :=
  ('.' :: extension.toList).isSuffixOf name.toList && extension.length + 1 < name.length

/-- Whether a path is that of a YAML file. -/
def isYaml (path : String) : Bool :=
  let name := lastName path
  hasExtension "yaml" name || hasExtension "yml" name

end SchedulerPolicy.Path
