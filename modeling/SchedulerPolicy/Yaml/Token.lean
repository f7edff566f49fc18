import SchedulerPolicy.Yaml.Lexeme

/-!
# Tokens of a YAML text

A text becomes a list of tokens (`tokens?`) in which all structure is explicit: where a collection
that is marked by indentation starts and ends, and what is the key of an entry.

A key may announce itself only afterwards, by the colon behind it. So whatever could be a key is
remembered, one candidate for each level of brackets (`Candidate`); when the colon comes, the key
token, and if need be the start of a mapping, are put in front of the tokens of the candidate
(`Scan.insertBefore`). A candidate lapses at the end of its line, or 1024 characters on. If it
stands where only a key can stand, that is an error.
-/

namespace SchedulerPolicy.Yaml

/-- The pieces of a text. -/
inductive Token where
  | directive (d : Lexeme.Directive)
  | documentStart
  | documentEnd
  | blockSeqStart
  | blockMapStart
  | blockEnd
  | flowSeqStart
  | flowSeqEnd
  | flowMapStart
  | flowMapEnd
  /-- The dash in front of an item. -/
  | item
  /-- The comma between brackets. -/
  | comma
  | key
  | value
  | alias (name : String)
  | anchor (name : String)
  | tag (t : Lexeme.TagText)
  | scalar (s : Scalar)

/-- What may turn out to be a key. -/
structure Candidate where
  /-- Whether only a key can stand there. -/
  isRequired : Bool
  /-- The number of tokens in front of it. -/
  position : Nat
  index : Nat
  line : Nat
  column : Nat

/-- Tokens in the making. -/
structure Scan where
  cursor : Cursor
  /-- The tokens so far, the last one first. -/
  made : List Token := []
  count : Nat := 0
  /-- The column of the innermost block collection, -1 outside all of them. -/
  indent : Int := -1
  /-- The columns of the block collections around it. -/
  outer : List Int := []
  /-- Whether a key may stand here. -/
  keyAllowed : Bool := true
  /-- The candidate of the innermost level of brackets. -/
  candidate : Option Candidate := none
  /-- The candidates of the levels around it. -/
  outerCandidates : List (Option Candidate) := []

namespace Scan

/-- Whether the place is between brackets. -/
def inFlow (s : Scan) : Bool := !s.outerCandidates.isEmpty

/-- Adds a token. -/
def add (s : Scan) (t : Token) : Scan := { s with made := t :: s.made, count := s.count + 1 }

/-- Puts a token in front of all but the first `position` tokens. -/
def insertBefore (s : Scan) (position : Nat) (t : Token) : Scan :=
  -- `made` is reversed, so the tokens behind the position come first
  let behind := s.count - position
  { s with
    made := s.made.take behind ++ t :: s.made.drop behind, count := s.count + 1 }

/-! ### Candidates -/

/-- Drops a candidate that has lapsed, unless it had to be a key. -/
def lapse (c : Cursor) : Option Candidate → Option (Option Candidate)
  | none => some none
  | some k =>
    if k.line < c.line || k.index + 1024 < c.index then
      if k.isRequired then none else some none
    else some (some k)

/-- Drops the candidates that have lapsed. -/
def lapseAll (s : Scan) : Option Scan := do
  let candidate ← lapse s.cursor s.candidate
  let outerCandidates ← s.outerCandidates.mapM (lapse s.cursor)
  return { s with candidate, outerCandidates }

/-- Drops the candidate of this level, unless it had to be a key. -/
def dropCandidate (s : Scan) : Option Scan :=
  match s.candidate with
  | some k => if k.isRequired then none else some { s with candidate := none }
  | none => some s

/-- Remembers that what comes next may be a key. -/
def saveCandidate (s : Scan) : Option Scan :=
  if s.keyAllowed then do
    let s ← s.dropCandidate
    return { s with
      candidate := some {
        isRequired := !s.inFlow && s.indent == s.cursor.column
        position := s.count
        index := s.cursor.index
        line := s.cursor.line
        column := s.cursor.column } }
  else some s

/-! ### Indentation -/

/-- Opens a block collection at a column, unless one is open there; its token goes in front of all
but the first `position` tokens. -/
def openBlock (s : Scan) (column position : Nat) (t : Token) : Scan :=
  if !s.inFlow && decide (s.indent < column) then
    { s.insertBefore position t with indent := column, outer := s.indent :: s.outer }
  else s

/-- Closes blocks down to a column, given the columns of those around the innermost. -/
def closeFrom (s : Scan) (column : Int) : List Int → Scan
  | [] => s
  | next :: rest =>
    if column < s.indent then
      closeFrom { s.add .blockEnd with indent := next, outer := rest } column rest
    else s

/-- Closes the block collections that are indented deeper than a column. -/
def closeBlocks (s : Scan) (column : Int) : Scan :=
  if s.inFlow then s else s.closeFrom column s.outer

/-! ### Tokens -/

/-- Adds a token of one character and passes over it. -/
def sign (s : Scan) (t : Token) : Scan := { s.add t with cursor := s.cursor.skip }

/-- Adds a token that was read up to a place. -/
def read (s : Scan) (t : Token) (c : Cursor) : Scan := { s.add t with cursor := c }

/-- A directive or a document mark: outside all blocks, and no key. -/
def atTop (s : Scan) : Option Scan := do
  let s ← (s.closeBlocks (-1)).dropCandidate
  return { s with keyAllowed := false }

/-- An opening bracket. -/
def openFlow (s : Scan) (t : Token) : Option Scan := do
  let s ← s.saveCandidate
  return { s.sign t with
    candidate := none, outerCandidates := s.candidate :: s.outerCandidates, keyAllowed := true }

/-- A closing bracket. -/
def closeFlow (s : Scan) (t : Token) : Option Scan := do
  let s ← s.dropCandidate
  let s := match s.outerCandidates with
    | k :: rest => { s with candidate := k, outerCandidates := rest }
    | [] => s
  return { s.sign t with keyAllowed := false }

/-- A comma. -/
def flowComma (s : Scan) : Option Scan := do
  let s ← s.dropCandidate
  return { s.sign .comma with keyAllowed := true }

/-- The dash of an item. -/
def blockItem (s : Scan) : Option Scan :=
  if !s.inFlow && !s.keyAllowed then none
  else do
    let s ← (s.openBlock s.cursor.column s.count .blockSeqStart).dropCandidate
    return { s.sign .item with keyAllowed := true }

/-- The question mark of a key. -/
def explicitKey (s : Scan) : Option Scan :=
  if !s.inFlow && !s.keyAllowed then none
  else do
    let s ← (s.openBlock s.cursor.column s.count .blockMapStart).dropCandidate
    return { s.sign .key with keyAllowed := !s.inFlow }

/-- The colon of a value. The candidate of this level becomes the key. -/
def entryValue (s : Scan) : Option Scan :=
  match s.candidate with
  | some k =>
    -- the start of the mapping goes in front of the key token that is put there first
    let s := (s.insertBefore k.position .key).openBlock k.column k.position .blockMapStart
    some { s.sign .value with candidate := none, keyAllowed := false }
  | none =>
    -- the key is missing, or was announced by a question mark
    if !s.inFlow && !s.keyAllowed then none
    else
      let s := s.openBlock s.cursor.column s.count .blockMapStart
      some { s.sign .value with keyAllowed := !s.inFlow }

/-- A token that may be, or belong to, a key. -/
def keyed {α : Type} (s : Scan) (lexeme : Cursor → Option (α × Cursor)) (token : α → Token) :
    Option Scan := do
  let s ← s.saveCandidate
  let (x, c) ← lexeme s.cursor
  return { s.read (token x) c with keyAllowed := false }

/-- A scalar without quotes. A further line may start with a key. -/
def plainScalar (s : Scan) : Option Scan := do
  let s ← s.saveCandidate
  let (x, breaks, c) ← Lexeme.plain s.inFlow (s.indent + 1) s.cursor
  return { s.read (.scalar x) c with keyAllowed := breaks }

/-- A scalar in a block. -/
def blockScalar (s : Scan) (isLiteral : Bool) : Option Scan := do
  let s ← s.dropCandidate
  let (x, c) ← Lexeme.block isLiteral s.indent s.cursor
  return { s.read (.scalar x) c with keyAllowed := true }

/-- Whether a scalar without quotes may start here. -/
def startsPlain (s : Scan) : Bool :=
  match s.cursor.rest with
  | [] => false
  | c :: rest =>
    if c == '-' then !(rest.head?.map isBlank).getD false
    else if c == '?' || c == ':' then !s.inFlow && !separatorFollows rest
    else !isSeparator c && !opensPunctuation c

/-- Passes over blanks, comments, line breaks and byte order marks. A tab may stand only where no
key can start. -/
def skipBlanks : (fuel : Nat) → Scan → Scan
  | 0, s => s
  | fuel + 1, s =>
    let c := if s.cursor.column == 0 && s.cursor.startsWith (Char.ofNat 0xFEFF) then s.cursor.skip
      else s.cursor
    let allowsTab := s.inFlow || !s.keyAllowed
    let c := c.skipWhile fun x => x == ' ' || (allowsTab && x == '\t')
    let c := if c.startsWith '#' then c.skipWhile fun x => !isBreak x else c
    match c.break? with
    | some (_, next) =>
      skipBlanks fuel { s with cursor := next, keyAllowed := s.keyAllowed || !s.inFlow }
    | none => { s with cursor := c }

/-- Reads the token that starts at the place. -/
def next (s : Scan) : Option Scan :=
  let c := s.cursor
  if c.column == 0 && c.startsWith '%' then do
    let s ← s.atTop
    let (d, c) ← Lexeme.directive s.cursor
    return s.read (.directive d) c
  else if c.atDocumentMark then do
    let s ← s.atTop
    return s.read (if c.startsWith '-' then .documentStart else .documentEnd) (s.cursor.skip 3)
  else
    match c.peek? with
    | some '[' => s.openFlow .flowSeqStart
    | some '\x7b' => s.openFlow .flowMapStart
    | some ']' => s.closeFlow .flowSeqEnd
    | some '\x7d' => s.closeFlow .flowMapEnd
    | some ',' => s.flowComma
    | some '*' => s.keyed Lexeme.anchorName .alias
    | some '&' => s.keyed Lexeme.anchorName .anchor
    | some '!' => s.keyed (Lexeme.tag s.inFlow) .tag
    | some '\x27' => s.keyed (Lexeme.quoted '\x27') .scalar
    | some '"' => s.keyed (Lexeme.quoted '"') .scalar
    | some x =>
      if x == '-' && c.beforeSeparator then s.blockItem
      else if x == '?' && (s.inFlow || c.beforeSeparator) then s.explicitKey
      else if x == ':' && (s.inFlow || c.beforeSeparator) then s.entryValue
      else if x == '|' && !s.inFlow then s.blockScalar true
      else if x == '>' && !s.inFlow then s.blockScalar false
      else if s.startsPlain then s.plainScalar
      else none
    | none => none

/-- Reads all tokens. -/
def all : (fuel : Nat) → Scan → Option (List Token)
  | 0, _ => none
  | fuel + 1, s => do
    let s ← (skipBlanks (s.cursor.rest.length + 1) s).lapseAll
    let s := s.closeBlocks s.cursor.column
    -- at the end all blocks are closed, and a key that is still due is an error
    if s.cursor.rest.isEmpty then do
      let s ← (s.closeBlocks (-1)).dropCandidate
      return s.made.reverse
    else all fuel (← s.next)

end Scan

/-- Whether a character may stand in a text at all, be it in a comment. -/
def isTextChar (c : Char) : Bool :=
  let n := c.toNat
  n == 0x09 || n == 0x0A || n == 0x0D || (0x20 ≤ n && n ≤ 0x7E) || n == 0x85 ||
    (0xA0 ≤ n && n != 0xFFFE && n != 0xFFFF)

/-- The tokens of a text; `none` when it is malformed. -/
def tokens? (text : String) : Option (List Token) :=
  let cs := text.toList
  if cs.all isTextChar then Scan.all (cs.length + 2) { cursor := { rest := cs } } else none

end SchedulerPolicy.Yaml
