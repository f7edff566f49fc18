import SchedulerPolicy.Decimal.Literal
import SchedulerPolicy.Toml.Table

/-!
# Reading TOML

A document is a list of lines, each of them blank, a header or an entry, and any of them with a
comment behind it. `Toml.read?` gives the table that they define, as a value; `none` says that the
text is no TOML document.

Two kinds of value have no place among values and are given one: an infinity or not-a-number is
null, and a date or time is a mapping that holds its text.
-/

namespace SchedulerPolicy.Toml

/-- A step of reading, on the characters that are left. It may find the text malformed. -/
abbrev Read := StateT (List Char) Option

namespace Read

/-- The next character. -/
def peek? : Read (Option Char) := return (← get).head?

/-- Takes the next character. -/
def take : Read Char := do
  match ← get with
  | c :: cs => set cs; return c
  | [] => failure

/-- Passes over characters. -/
def pass (count : Nat) : Read Unit := modify (·.drop count)

/-- Takes the characters up to the first that fails a test. -/
def takeRun (p : Char → Bool) : Read (List Char) := do
  let cs ← get
  set (cs.dropWhile p)
  return cs.takeWhile p

/-- Passes over a text if it is next, and tells whether it was. -/
def accept (s : String) : Read Bool := do
  let cs ← get
  if s.toList.isPrefixOf cs then
    set (cs.drop s.length)
    return true
  else return false

/-- Passes over the first of some texts that is next, and tells whether one was. -/
def acceptAny : List String → Read Bool
  | [] => return false
  | s :: rest => do
    if ← accept s then return true else acceptAny rest

/-- Passes over a text, which has to be next. -/
def expect (s : String) : Read Unit := do
  if ← accept s then return () else failure

/-- What a step gives, or `none` with nothing taken if it fails. -/
def attempt {α : Type} (step : Read α) : Read (Option α) := fun cs =>
  match step cs with
  | some (x, rest) => some (some x, rest)
  | none => some (none, cs)

/-- How many characters are left, and one more. -/
def fuel : Read Nat := return (← get).length + 1

end Read

open Read

/-! ### Blanks and comments -/

/-- Passes over spaces and tabs. -/
def blanks : Read Unit := do
  let _ ← takeRun fun c => c == ' ' || c == '\t'

/-- Whether a character may stand in a comment or between quotes: no control character but the
tab. -/
def isTextChar (c : Char) : Bool := c == '\t' || (0x20 ≤ c.toNat && c.toNat != 0x7F)

/-- Passes over a line break if there is one. -/
def lineBreak : Read Bool := acceptAny ["\n", "\r\n"]

/-- Passes over a comment if there is one. -/
def comment : Read Unit := do
  if ← accept "#" then
    let _ ← takeRun isTextChar

/-- Passes over the rest of a line, on which only a comment may stand. -/
def lineEnd : Read Unit := do
  blanks
  comment
  if (← get).isEmpty then return ()
  else if ← lineBreak then return ()
  else failure

/-- Passes over blanks, comments and line breaks. -/
def blankLines : (fuel : Nat) → Read Unit
  | 0 => failure
  | fuel + 1 => do
    blanks
    comment
    if ← lineBreak then blankLines fuel

/-! ### Texts -/

/-- A character with a code point of a given count of hexadecimal digits. -/
def codePoint (digits : Nat) : Read Char := do
  let cs := (← get).take digits
  pass digits
  if cs.length = digits then
    let n ← Literal.natural? 16 cs
    if n < 0xD800 ∨ (0xDFFF < n ∧ n < 0x110000) then return Char.ofNat n else failure
  else failure

/-- The character that an escape stands for, behind its backslash. -/
def escape : Read Char := do
  match ← take with
  | 'b' => return Char.ofNat 8
  | 't' => return '\t'
  | 'n' => return '\n'
  | 'f' => return Char.ofNat 12
  | 'r' => return '\r'
  | '"' => return '"'
  | '\\' => return '\\'
  | 'u' => codePoint 4
  | 'U' => codePoint 8
  | _ => failure

/-- The rest of a text in double quotes. -/
def basicRest : (fuel : Nat) → String → Read String
  | 0, _ => failure
  | fuel + 1, text => do
    match ← take with
    | '"' => return text
    | '\\' => basicRest fuel (text.push (← escape))
    | c => if isTextChar c then basicRest fuel (text.push c) else failure

/-- The rest of a text in single quotes. -/
def literalRest : Read String := do
  let cs ← takeRun fun c => isTextChar c && c != '\x27'
  expect "\x27"
  return String.ofList cs

/-- Passes over the blanks and line breaks behind a backslash at the end of a line. -/
def continuation : (fuel : Nat) → Read Unit
  | 0 => failure
  | fuel + 1 => do
    blanks
    if ← lineBreak then continuation fuel

/-- The rest of a text of several lines. Three of its quotes end it; up to two more in front of them
belong to the text. Only between double quotes a backslash escapes. -/
def longRest (quote : Char) : (fuel : Nat) → String → Read String
  | 0, _ => failure
  | fuel + 1, text => do
    if ← lineBreak then longRest quote fuel (text.push '\n')
    else
      let quotes := (← get).takeWhile (· == quote)
      if 3 ≤ quotes.length then
        let count := min quotes.length 5
        pass count
        return text.pushn quote (count - 3)
      else
        match ← take with
        | '\\' =>
          if quote == '"' then
            let cs ← get
            let afterBlanks := cs.dropWhile fun c => c == ' ' || c == '\t'
            if afterBlanks.head? == some '\n' || (afterBlanks.take 2) == ['\r', '\n'] then
              continuation (cs.length + 1)
              longRest quote fuel text
            else longRest quote fuel (text.push (← escape))
          else longRest quote fuel (text.push '\\')
        | c => if isTextChar c then longRest quote fuel (text.push c) else failure

/-- A text of several lines, behind its opening quotes. A line break right there does not count. -/
def long (quote : Char) : Read String := do
  let _ ← lineBreak
  longRest quote (← fuel) ""

/-- A text between quotes of one line. -/
def short? : Read (Option String) := do
  if ← accept "\"" then return some (← basicRest (← fuel) "")
  else if ← accept "\x27" then return some (← literalRest)
  else return none

/-- A text between quotes. -/
def text? : Read (Option String) := do
  if ← accept "\"\"\"" then return some (← long '"')
  else if ← accept "\x27\x27\x27" then return some (← long '\x27')
  else short?

/-! ### Keys -/

/-- Whether a character may stand in a key without quotes. -/
def isKeyChar (c : Char) : Bool := c.isAlphanum || c == '-' || c == '_'

/-- One part of a key. -/
def keyPart : Read String := do
  match ← short? with
  | some s => return s
  | none =>
    let cs ← takeRun isKeyChar
    if cs.isEmpty then failure else return String.ofList cs

/-- A key of parts with dots and blanks between them. -/
def key : (fuel : Nat) → Read (List String)
  | 0 => failure
  | fuel + 1 => do
    blanks
    let first ← keyPart
    blanks
    if ← accept "." then return first :: (← key fuel) else return [first]

/-! ### Numbers -/

/-- A run of digits of a base in which single underscores stand between digits. -/
def digits (isDigit : Char → Bool) : Read (List Char) := do
  let cs ← takeRun fun c => isDigit c || c == '_'
  let isDouble (pair : Char × Char) : Bool := pair.1 == '_' && pair.2 == '_'
  if cs.head? == some '_' || cs.getLast? == some '_' || (cs.zip cs.tail).any isDouble || cs.isEmpty
  then failure
  else return cs.filter (· != '_')

/-- A whole number of 64 bits. -/
def wide (n : Int) : Read Value :=
  if -0x8000000000000000 ≤ n ∧ n ≤ 0x7fffffffffffffff then return .int n else failure

/-- A whole number in another base than ten, behind its mark. -/
def based (base : Nat) : Read Value := do
  let isDigit (c : Char) : Bool := ((Literal.digit? c).map fun d => decide (d < base)).getD false
  wide (← Literal.natural? base (← digits isDigit))

/-- The exponent of a number, if there is one. -/
def exponent : Read (List Char) := do
  if ← acceptAny ["e", "E"] then
    let sign := if ← accept "-" then ['-'] else []
    let _ ← if sign.isEmpty then accept "+" else pure false
    return 'e' :: sign ++ (← digits Char.isDigit)
  else return []

/-- An infinity or not-a-number is null. So is a number below all finite ones; one above them is no
number. -/
def floatValue (negative : Bool) (cs : List Char) : Read Value := do
  let x ← Literal.unsigned? negative cs
  match x with
  | .infinite false => failure
  | .finite .. => return .float x
  | _ => return .null

/-- A decimal number, whole or not, with or without a sign. -/
def decimalNumber : Read Value := do
  let negative ← accept "-"
  let _ ← if negative then pure false else accept "+"
  if ← acceptAny ["inf", "nan"] then return .null
  else
    let whole ← digits Char.isDigit
    if whole.head? == some '0' && 1 < whole.length then failure
    else
      let fraction ← if ← accept "." then (return '.' :: (← digits Char.isDigit)) else pure []
      let scale ← exponent
      if fraction.isEmpty && scale.isEmpty then
        let n ← Literal.natural? 10 whole
        wide (if negative then -(n : Int) else n)
      else floatValue negative (whole ++ fraction ++ scale)

/-- A number. Only one without a sign may be in another base than ten. -/
def number : Read Value := do
  if ← accept "0x" then based 16
  else if ← accept "0o" then based 8
  else if ← accept "0b" then based 2
  else decimalNumber

/-! ### Dates and times -/

/-- A number of exactly so many digits, at most `limit`. -/
def field (count limit : Nat) : Read Nat := do
  let cs := (← get).take count
  if cs.length = count && cs.all Char.isDigit then
    pass count
    let n ← Literal.natural? 10 cs
    if n ≤ limit then return n else failure
  else failure

/-- The number of days of a month. -/
def daysIn (year month : Nat) : Nat :=
  if month = 2 then
    if year % 4 = 0 ∧ (year % 100 ≠ 0 ∨ year % 400 = 0) then 29 else 28
  else if month = 4 ∨ month = 6 ∨ month = 9 ∨ month = 11 then 30
  else 31

/-- A date. -/
def date : Read Unit := do
  let year ← field 4 9999
  expect "-"
  let month ← field 2 12
  expect "-"
  let day ← field 2 31
  if month = 0 ∨ day = 0 ∨ daysIn year month < day then failure else return ()

/-- A time of day, with seconds and perhaps a fraction of one. -/
def time : Read Unit := do
  let _ ← field 2 23
  expect ":"
  let _ ← field 2 59
  expect ":"
  let _ ← field 2 60
  if ← accept "." then
    let cs ← takeRun Char.isDigit
    if cs.isEmpty then failure else return ()

/-- A distance from universal time. -/
def offset : Read Unit := do
  if ← acceptAny ["Z", "z"] then return ()
  else if ← acceptAny ["+", "-"] then
    let _ ← field 2 23
    expect ":"
    let _ ← field 2 59
  else failure

/-- The time behind a date. -/
def timeAfterDate : Read Unit := do
  if ← acceptAny ["T", "t", " "] then
    time
    let _ ← attempt offset
  else failure

/-- A date, a time or both, as its text. -/
def moment : Read Value := do
  let before ← get
  match ← attempt date with
  | some () =>
    let _ ← attempt timeAfterDate
  | none => time
  let text := before.take (before.length - (← get).length)
  return .record [("datetime", .string (String.ofList text))]

/-! ### Values -/

/-- How many brackets may lie around each other. -/
def nestingLimit : Nat := 79

mutual

/-- A value; `depth` more brackets may be opened. -/
def value (depth : Nat) : (fuel : Nat) → Read Value
  | 0 => failure
  | fuel + 1 => do
    match ← text? with
    | some s => return .string s
    | none =>
      if ← accept "[" then
        match depth with
        | 0 => failure
        | depth + 1 => return .seq (← items depth fuel)
      else if ← accept "\x7b" then
        match depth with
        | 0 => failure
        | depth + 1 =>
          blanks
          if ← accept "\x7d" then return .map []
          else return (← inlineEntries depth Table.empty fuel).toValue
      else if ← accept "true" then return .bool true
      else if ← accept "false" then return .bool false
      else
        match ← attempt moment with
        | some v => return v
        | none => number

/-- The items of a list, to its end. -/
def items (depth : Nat) : (fuel : Nat) → Read (List Value)
  | 0 => failure
  | fuel + 1 => do
    blankLines (← Read.fuel)
    if ← accept "]" then return []
    else
      let v ← value depth fuel
      blankLines (← Read.fuel)
      if ← accept "," then return v :: (← items depth fuel)
      else
        expect "]"
        return [v]

/-- The entries of a table in braces, to its end. -/
def inlineEntries (depth : Nat) (t : Table) : (fuel : Nat) → Read Table
  | 0 => failure
  | fuel + 1 => do
    let path ← key (← Read.fuel)
    expect "="
    blanks
    let v ← value depth fuel
    let t ← t.put path v
    blanks
    if ← accept "," then inlineEntries depth t fuel
    else
      expect "\x7d"
      return t

end

/-! ### Documents -/

/-- A document in the making: its table, and the header under which entries are put. -/
structure Document where
  root : Table := Table.empty
  header : List String := []

/-- Reads a line. -/
def line (d : Document) : Read Document := do
  blanks
  match ← peek? with
  | none => return d
  | some '#' => lineEnd; return d
  | some '\n' => lineEnd; return d
  | some '\r' => lineEnd; return d
  | some '[' =>
    if ← accept "[[" then
      let path ← key (← fuel)
      expect "]]"
      lineEnd
      return { root := ← d.root.defineRow path, header := path }
    else
      expect "["
      let path ← key (← fuel)
      expect "]"
      lineEnd
      return { root := ← d.root.define path, header := path }
  | some _ =>
    let path ← key (← fuel)
    expect "="
    blanks
    let v ← value nestingLimit (← fuel)
    lineEnd
    return { d with root := ← d.root.putAt d.header path v }

/-- Reads all lines. -/
def lines : (fuel : Nat) → Document → Read Document
  | 0, _ => failure
  | fuel + 1, d => do
    if (← get).isEmpty then return d else lines fuel (← line d)

/-- The value of a document. A byte order mark in front of it does not count. -/
def read? (text : String) : Option Value :=
  let cs := text.toList
  let cs := if cs.head? == some (Char.ofNat 0xFEFF) then cs.tail else cs
  (lines (cs.length + 1) {} cs).map fun found => found.1.root.toValue

end SchedulerPolicy.Toml
