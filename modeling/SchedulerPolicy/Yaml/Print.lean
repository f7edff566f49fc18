import SchedulerPolicy.Decimal.Shortest
import SchedulerPolicy.Value
import SchedulerPolicy.Yaml.Style

/-!
# Values as YAML

A document is written in block layout: an entry or an item a line, nested collections indented by
two spaces. Two rules keep it narrow: the items of a list that stands under a key are not indented,
and a collection inside a list starts on the line of its dash. A key that is long, has several
lines or is a collection is set off by a question mark. Lines are never folded.
-/

namespace SchedulerPolicy.Yaml

/-! ### Scalars -/

/-- Spaces that indent a line. -/
def pad (indent : Nat) : String := "".pushn ' ' indent

/-- An upper-case hexadecimal number with a given count of digits. -/
def hex (digits n : Nat) : String :=
  let ds := (Nat.toDigits 16 n).map Char.toUpper
  String.ofList (List.replicate (digits - ds.length) '0' ++ ds)

/-- A character inside double quotes. -/
def escaped (c : Char) : String :=
  let n := c.toNat
  if c == '"' then "\\\""
  else if c == '\\' then "\\\\"
  else if isPrintable c && !isBreak c then c.toString
  else
    match n with
    | 0x00 => "\\0"
    | 0x07 => "\\a"
    | 0x08 => "\\b"
    | 0x09 => "\\t"
    | 0x0A => "\\n"
    | 0x0B => "\\v"
    | 0x0C => "\\f"
    | 0x0D => "\\r"
    | 0x1B => "\\e"
    | 0x85 => "\\N"
    | 0x2028 => "\\L"
    | 0x2029 => "\\P"
    | _ =>
      if n ≤ 0xFF then "\\x" ++ hex 2 n
      else if n ≤ 0xFFFF then "\\u" ++ hex 4 n
      else "\\U" ++ hex 8 n

/-- A text in double quotes. -/
def doubleQuoted (s : String) : String :=
  s.foldl (fun acc c => acc ++ escaped c) "\"" ++ "\""

/-- The characters of a text over several lines, each line that holds any being indented. `atStart`
says that a line starts. -/
def indented (indent : Nat) (write : Char → String) : (atStart : Bool) → List Char → String
  | _, [] => ""
  | atStart, c :: cs =>
    if isBreak c then c.toString ++ indented indent write true cs
    else (if atStart then pad indent else "") ++ write c ++ indented indent write false cs

/-- A text in single quotes, in which a quote is written twice. -/
def singleQuoted (indent : Nat) (s : String) : String :=
  let write (c : Char) : String := if c == '\x27' then "\x27\x27" else c.toString
  let cs := s.toList
  let closing := if (cs.getLast?.map isBreak).getD false then pad indent else ""
  "\x27" ++ indented indent write false cs ++ closing ++ "\x27"

/-- The header of a literal block: whether its first line starts with spaces of its own, and how
many line breaks end it, none, one or several. -/
def literalHeader (cs : List Char) : String :=
  let opensBlank := (cs.head?.map fun c => c == ' ' || isBreak c).getD false
  let chomping := match cs.reverse with
    | c :: rest =>
      if !isBreak c then "-"
      else if (rest.head?.map isBreak).getD true then "+"
      else ""
    | [] => "-"
  "|" ++ (if opensBlank then "2" else "") ++ chomping

/-- A literal block: a header, and the lines below it. -/
def literalBlock (indent : Nat) (s : String) : String :=
  literalHeader s.toList ++ "\n" ++ indented indent Char.toString true s.toList

/-- A text in its style. -/
def textIn (indent : Nat) (s : String) : String :=
  match Style.of s with
  | .plain => s
  | .single => singleQuoted indent s
  | .double => doubleQuoted s
  | .literal => literalBlock indent s

/-- The spelling of a double. -/
def doubleText : Double → String
  | .infinite negative => if negative then "-.inf" else ".inf"
  | .nan => ".nan"
  | x => x.text?.getD ""

/-- A value without parts. The other values have no spelling of their own. -/
def scalarText (indent : Nat) : Value → String
  | .null => "null"
  | .bool b => toString b
  | .int n => toString n
  | .float x => doubleText x
  | .string s => textIn indent s
  | .seq _ => "[]"
  | .map _ => "\x7b\x7d"
  | .tagged .. => ""

/-- Ends a line unless it has ended already. -/
def endLine (s : String) : String :=
  if (s.toList.getLast?.map isBreak).getD false then s else s.push '\n'

/-! ### Collections -/

/-- The longest key, in bytes, that stands on the line of its value. -/
def simpleKeyLimit : Nat := 128

/-- Whether a key stands on the line of its value. -/
def isSimpleKey : Value → Bool
  | .string s => !s.toList.any isBreak && s.utf8ByteSize ≤ simpleKeyLimit
  | .seq (_ :: _) => false
  | .map (_ :: _) => false
  | .tagged .. => false
  | _ => true

/-- Rows at one indentation, the first of which starts where the writer stands. -/
def joinRows (indent : Nat) (rows : List String) : String := String.intercalate (pad indent) rows

mutual

/-- A value behind a dash, a question mark or the colon that goes with it, in a collection that is
indented by `indent`. -/
def onLine (indent : Nat) : Value → String
  | .seq [] => endLine (scalarText indent (.seq []))
  | .map [] => endLine (scalarText indent (.map []))
  | .seq items => joinRows (indent + 2) (itemRows (indent + 2) items)
  | .map entries => joinRows (indent + 2) (entryRows (indent + 2) entries)
  | .tagged tag v => "!" ++ tag ++ belowLine indent (indent + 2) v
  | v => endLine (scalarText (indent + 2) v)
termination_by structural v => v

/-- A value behind a key: a scalar on the same line, a list below it at `listIndent`, a mapping
below it and indented. -/
def belowLine (indent listIndent : Nat) : Value → String
  | .seq [] => " " ++ endLine (scalarText indent (.seq []))
  | .map [] => " " ++ endLine (scalarText indent (.map []))
  | .seq items => "\n" ++ pad listIndent ++ joinRows listIndent (itemRows listIndent items)
  | .map entries =>
    "\n" ++ pad (indent + 2) ++ joinRows (indent + 2) (entryRows (indent + 2) entries)
  | .tagged tag v => " !" ++ tag ++ belowLine indent listIndent v
  | v => " " ++ endLine (scalarText (indent + 2) v)
termination_by structural v => v

/-- The rows of the items of a list. -/
def itemRows (indent : Nat) : List Value → List String
  | [] => []
  | v :: rest => ("- " ++ onLine indent v) :: itemRows indent rest
termination_by structural items => items

/-- The rows of the entries of a mapping. -/
def entryRows (indent : Nat) : List (Value × Value) → List String
  | [] => []
  | (k, v) :: rest =>
    let row :=
      if isSimpleKey k then scalarText (indent + 2) k ++ ":" ++ belowLine indent indent v
      else "? " ++ onLine indent k ++ pad indent ++ ": " ++ onLine indent v
    row :: entryRows indent rest
termination_by structural entries => entries

end

/-- A value as a document. -/
def print : Value → String
  | .seq [] => endLine (scalarText 0 (.seq []))
  | .map [] => endLine (scalarText 0 (.map []))
  | .seq items => joinRows 0 (itemRows 0 items)
  | .map entries => joinRows 0 (entryRows 0 entries)
  | .tagged tag v => "!" ++ tag ++ belowLine 0 0 v
  | v => endLine (scalarText 2 v)

end SchedulerPolicy.Yaml
