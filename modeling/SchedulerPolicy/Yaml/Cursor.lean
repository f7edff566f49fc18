import SchedulerPolicy.Yaml.Style

/-!
# A place in a YAML text

What is left to read, and where it stands. The column matters because indentation is structure, the
line and the index because a key without a question mark ends on its line and within a bounded
distance.
-/

namespace SchedulerPolicy.Yaml

/-- What is left of a text, and its place. -/
structure Cursor where
  rest : List Char
  index : Nat := 0
  line : Nat := 0
  column : Nat := 0

namespace Cursor

/-- The next character. -/
def peek? (c : Cursor) : Option Char := c.rest.head?

/-- Whether the next character is a given one. -/
def startsWith (c : Cursor) (x : Char) : Bool := c.peek? == some x

/-- Whether a separator or the end of the text is next. -/
def atSeparator (c : Cursor) : Bool := separatorFollows c.rest

/-- Whether a separator or the end of the text comes after the next character. -/
def beforeSeparator (c : Cursor) : Bool := separatorFollows c.rest.tail

/-- Whether a space or a tab is next. -/
def atBlank (c : Cursor) : Bool := (c.peek?.map isBlank).getD false

/-- Whether a line break is next. -/
def atBreak (c : Cursor) : Bool := (c.peek?.map isBreak).getD false

/-- Whether a line break or the end of the text is next. -/
def atLineEnd (c : Cursor) : Bool := (c.peek?.map isBreak).getD true

/-- Passes over characters of one line. -/
def skip (c : Cursor) (count : Nat := 1) : Cursor :=
  { c with
    rest := c.rest.drop count, index := c.index + count, column := c.column + count }

/-- The characters up to the first that fails a test, and the place behind them. -/
def span (c : Cursor) (p : Char → Bool) : List Char × Cursor :=
  let run := c.rest.takeWhile p
  (run, c.skip run.length)

/-- Passes over the characters up to the first that fails a test. -/
def skipWhile (c : Cursor) (p : Char → Bool) : Cursor := (c.span p).2

/-- The line break that is next, as text, and the place behind it. Every line break reads as a line
feed, save the line and the paragraph separator, which read as themselves. -/
def break? (c : Cursor) : Option (Char × Cursor) :=
  let next (rest : List Char) (count : Nat) : Cursor :=
    { rest, index := c.index + count, line := c.line + 1, column := 0 }
  match c.rest with
  | '\r' :: '\n' :: rest => some ('\n', next rest 2)
  | x :: rest =>
    if x.toNat = 0x2028 ∨ x.toNat = 0x2029 then some (x, next rest 1)
    else if isBreak x then some ('\n', next rest 1)
    else none
  | [] => none

/-- Whether a line starts with `---` or `...` and a separator behind it. -/
def atDocumentMark (c : Cursor) : Bool :=
  c.column == 0 &&
    match c.rest with
    | '-' :: '-' :: '-' :: rest => separatorFollows rest
    | '.' :: '.' :: '.' :: rest => separatorFollows rest
    | _ => false

end Cursor

/-- Whether a character may stand in a name: an ASCII letter, a digit, a dash or an underscore. -/
def isNameChar (c : Char) : Bool := c.isAlphanum || c == '-' || c == '_'

end SchedulerPolicy.Yaml
