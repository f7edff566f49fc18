import SchedulerPolicy.Text.Blank
import SchedulerPolicy.Text.Segments

/-!
# Git URLs

Where a repository is hosted is written in two fashions, `scheme://user@host:22/org/repo` and
`user@host:org/repo`, with the scheme, the user and the number left out at will, and with or without
`.git` and a slash at the end. `GitUrl.parse?` finds the organisation and the repository.

What follows the host is settled: the last segment is the repository, the segments before it are
the organisation, and none is empty. What precedes it is not, for `git@host` may be a user with a
host or a host, and `:22/` a number that belongs to the host or the first segment. The readings are
tried in one order: with a scheme before without, with a user before without, with a number before
without. The first reading under which all of the text makes sense counts.
-/

namespace SchedulerPolicy.GitUrl

/-- The two readings of an optional part, the one that has it first. -/
def orSkip (after? : Option (List Char)) (cs : List Char) : List (List Char) :=
  match after? with
  | some after => [after, cs]
  | none => [cs]

/-- What follows a scheme, small letters or plus signs in front of `://`. -/
def afterScheme? (cs : List Char) : Option (List Char) :=
  let isSchemeChar (c : Char) : Bool := ('a' ≤ c && c ≤ 'z') || c == '+'
  match cs.takeWhile isSchemeChar, cs.dropWhile isSchemeChar with
  | _ :: _, ':' :: '/' :: '/' :: rest => some rest
  | _, _ => none

/-- What follows a user, anything but slashes in front of `@`. -/
def afterUser? (cs : List Char) : Option (List Char) :=
  let isUserChar (c : Char) : Bool := c != '@' && c != '/'
  match cs.takeWhile isUserChar, cs.dropWhile isUserChar with
  | _ :: _, '@' :: rest => some rest
  | _, _ => none

/-- What follows a host, which is not empty and ends at a slash or a colon. -/
def afterHost? (cs : List Char) : Option (List Char) :=
  let isHostChar (c : Char) : Bool := c != '/' && c != ':'
  match cs.takeWhile isHostChar with
  | [] => none
  | _ => some (cs.dropWhile isHostChar)

/-- What follows a number behind a host, a colon and digits. -/
def afterNumber? : List Char → Option (List Char)
  | ':' :: cs =>
    match cs.takeWhile Char.isDigit with
    | [] => none
    | _ => some (cs.dropWhile Char.isDigit)
  | _ => none

/-- What follows the slash or colon between host and path. -/
def afterSeparator? : List Char → Option (List Char)
  | '/' :: cs => some cs
  | ':' :: cs => some cs
  | _ => none

/-- A repository without `.git` behind it. A repository called `.git` keeps its name. -/
def withoutGitSuffix (repo : List Char) : List Char :=
  match repo.reverse with
  | 't' :: 'i' :: 'g' :: '.' :: c :: rest => (c :: rest).reverse
  | _ => repo

/-- The organisation and the repository that a path names: at least two segments, none of them
empty, with one slash behind the last at most. -/
def ofPath? (path : List Char) : Option (String × String) :=
  let parts := Text.segments path
  let parts := if parts.getLast? = some [] then parts.dropLast else parts
  match parts.reverse with
  | repo :: org =>
    if org.isEmpty || parts.any List.isEmpty then none
    else
      some (String.ofList (Text.joinSegments org.reverse), String.ofList (withoutGitSuffix repo))
  | [] => none

/-- The paths to which the readings of a URL lead, in the order in which they are tried. -/
def paths (cs : List Char) : List (List Char) :=
  (orSkip (afterScheme? cs) cs).flatMap fun cs =>
  (orSkip (afterUser? cs) cs).flatMap fun cs =>
  (afterHost? cs).toList.flatMap fun cs =>
  (orSkip (afterNumber? cs) cs).flatMap fun cs =>
  (afterSeparator? cs).toList

/-- The organisation and the repository that a URL names. White space around the URL does not
count. -/
def parse? (url : String) : Option (String × String) :=
  (paths (Text.trimChars url.toList)).findSome? ofPath?

end SchedulerPolicy.GitUrl
