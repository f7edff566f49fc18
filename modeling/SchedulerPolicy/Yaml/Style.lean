import SchedulerPolicy.Yaml.Plain

/-!
# How a text is written

A text is written in one of four styles: plain, in single quotes, in double quotes, or as a literal
block below its key. A text of several lines asks for a literal block, a text that would be taken
for something else for single quotes, any other for the plain style; and where the style asked for
cannot hold the text, another takes its place (`Style.of`).

What a style can hold depends on a few facts about the characters of the text, gathered in one pass
(`Traits.of`): blanks and line breaks at the ends and next to each other, characters that have to be
escaped, and characters that would be taken for punctuation.
-/

namespace SchedulerPolicy.Yaml

/-- The styles of a written text. -/
inductive Style where
  | plain
  | single
  | double
  | literal
deriving DecidableEq, Repr

/-- Whether a character ends a line. -/
def isBreak (c : Char) : Bool :=
  c == '\n' || c == '\r' || c.toNat == 0x85 || c.toNat == 0x2028 || c.toNat == 0x2029

/-- Whether a character is a space or a tab. -/
def isBlank (c : Char) : Bool := c == ' ' || c == '\t'

/-- Whether a character can stand in a document as it is. -/
def isPrintable (c : Char) : Bool :=
  let n := c.toNat
  n == 0x0A || (0x20 ≤ n && n ≤ 0x7E) || (0xA0 ≤ n && n != 0xFEFF && n != 0xFFFE && n != 0xFFFF)

/-- Whether a character sets off the characters on its two sides. -/
def isSeparator (c : Char) : Bool := isBlank c || isBreak c || c.toNat == 0

/-- Whether nothing follows, or a separator. -/
def separatorFollows (cs : List Char) : Bool := (cs.head?.map isSeparator).getD true

/-- What decides on the styles that a text can have. -/
structure Traits where
  leadingBlank : Bool
  trailingSpace : Bool
  trailingBreak : Bool
  /-- A space follows a line break. -/
  breakThenSpace : Bool
  /-- A line break follows a space. -/
  spaceThenBreak : Bool
  severalLines : Bool
  /-- A character has to be escaped. -/
  special : Bool
  /-- A character would be taken for punctuation. -/
  punctuation : Bool
deriving DecidableEq, Repr

/-- Whether a list has two neighbours of two kinds. -/
def hasNeighbours (p q : Char → Bool) : List Char → Bool
  | c :: d :: cs => (p c && q d) || hasNeighbours p q (d :: cs)
  | _ => false

/-- Whether a character is punctuation at the start of a text. -/
def opensPunctuation (c : Char) : Bool :=
  "#,[]&*!|>\"%@".contains c || c == '\x7b' || c == '\x7d' || c == '\x27' || c == '\x60'

/-- Whether the start of a text would be taken for punctuation. -/
def startsWithPunctuation : List Char → Bool
  | '-' :: '-' :: '-' :: _ => true
  | '.' :: '.' :: '.' :: _ => true
  | c :: cs =>
    opensPunctuation c || ((c == '?' || c == ':' || c == '-') && separatorFollows cs)
  | [] => false

/-- Whether a text has punctuation behind its first character: a colon in front of a blank, or a
number sign behind one. -/
def holdsPunctuation : List Char → Bool
  | c :: d :: cs =>
    (d == ':' && separatorFollows cs) || (d == '#' && isSeparator c) || holdsPunctuation (d :: cs)
  | _ => false

namespace Traits

/-- The facts about a text. -/
def of (cs : List Char) : Traits where
  leadingBlank := (cs.head?.map fun c => c == ' ' || isBreak c).getD false
  trailingSpace := cs.getLast? == some ' '
  trailingBreak := (cs.getLast?.map isBreak).getD false
  breakThenSpace := hasNeighbours isBreak (· == ' ') cs
  spaceThenBreak := hasNeighbours (· == ' ') isBreak cs
  severalLines := cs.any isBreak
  special := cs.any fun c => !isPrintable c
  punctuation := startsWithPunctuation cs || holdsPunctuation cs

/-- Whether only double quotes can hold the text. -/
def needsEscapes (t : Traits) : Bool := t.special || t.spaceThenBreak

/-- Whether the plain style can hold the text. -/
def allowsPlain (t : Traits) : Bool :=
  !(t.leadingBlank || t.trailingSpace || t.trailingBreak || t.breakThenSpace || t.severalLines ||
    t.needsEscapes || t.punctuation)

/-- Whether single quotes can hold the text. -/
def allowsSingle (t : Traits) : Bool := !(t.breakThenSpace || t.needsEscapes)

/-- Whether a literal block can hold the text. -/
def allowsLiteral (t : Traits) : Bool := !(t.trailingSpace || t.needsEscapes)

end Traits

namespace Style

/-- The style that a text asks for. -/
def wanted (s : String) : Style :=
  if s.toList.contains '\n' then .literal
  else if needsQuotes s then .single
  else .plain

/-- The style of a text. -/
def of (s : String) : Style :=
  let t := Traits.of s.toList
  match wanted s with
  | .literal => if t.allowsLiteral then .literal else .double
  | .plain => if t.allowsPlain then .plain else if t.allowsSingle then .single else .double
  | _ => if t.allowsSingle then .single else .double

end Style

end SchedulerPolicy.Yaml
