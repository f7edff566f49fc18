import SchedulerPolicy.Yaml.Cursor

/-!
# Scalars, names and tags of a YAML text

How the pieces of a text that are more than one character long are read: scalars in their five
notations, the names of anchors, tags, and the directives in front of a document. Each reader takes
the place where its piece starts and gives the piece with the place behind it; `none` says that the
text is malformed.

A scalar that runs over several lines is folded: a single line break reads as a space, and of
several the first is dropped (`Gap.text`). Only literal blocks keep their lines.
-/

namespace SchedulerPolicy.Yaml

/-- A scalar as it was written. -/
structure Scalar where
  text : String
  /-- Neither quoted nor in a block. -/
  isPlain : Bool := false
  /-- In a block that keeps its lines. -/
  isLiteral : Bool := false
deriving DecidableEq, Inhabited

namespace Lexeme

/-! ### Gaps -/

/-- What lies between two words of a scalar: blanks on one line, or line breaks. -/
structure Gap where
  blanks : List Char := []
  /-- Whether a line ends in the gap. The blanks do not count then. -/
  breaks : Bool := false
  /-- The first line break. An escaped one leaves no trace. -/
  first : List Char := []
  /-- The further line breaks. -/
  more : List Char := []

/-- Line breaks, folded. -/
def folded (first more : List Char) : List Char :=
  if first = ['\n'] then (if more.isEmpty then [' '] else more) else first ++ more

/-- What a gap adds to the text of a scalar. -/
def Gap.text (g : Gap) : String :=
  String.ofList (if g.breaks then folded g.first g.more else g.blanks)

/-- Reads a gap. A tab may not stand left of `leastColumn` on a further line. -/
def gap (leastColumn : Int) : (fuel : Nat) → Gap → Cursor → Option (Gap × Cursor)
  | 0, g, c => some (g, c)
  | fuel + 1, g, c =>
    match c.break? with
    | some (b, next) =>
      let g := if g.breaks then { g with more := g.more ++ [b] }
        else { g with blanks := [], breaks := true, first := [b] }
      gap leastColumn fuel g next
    | none =>
      if c.atBlank then
        if g.breaks then
          -- blanks in front of the next word are indentation
          if c.startsWith '\t' && decide ((c.column : Int) < leastColumn) then none
          else gap leastColumn fuel g c.skip
        else gap leastColumn fuel { g with blanks := g.blanks ++ c.peek?.toList } c.skip
      else some (g, c)

/-! ### Plain scalars -/

/-- Whether a character ends a plain scalar between brackets. -/
def isFlowPunctuation (c : Char) : Bool :=
  c == ',' || c == '[' || c == ']' || c == '\x7b' || c == '\x7d'

/-- A word of a plain scalar. A colon ends it when a separator follows, and between brackets it must
not stand in front of punctuation. -/
def plainWord (inFlow : Bool) : List Char → Option (List Char)
  | [] => some []
  | c :: cs =>
    if isSeparator c then some []
    else if inFlow && c == ':' && (cs.head?.map fun d => d == '?' || isFlowPunctuation d).getD false
    then none
    else if (c == ':' && separatorFollows cs) || (inFlow && isFlowPunctuation c) then some []
    else (plainWord inFlow cs).map (c :: ·)

/-- The rest of a plain scalar, given its text so far and the gap behind it; also whether the scalar
ends in front of a further line. -/
def plainRest (inFlow : Bool) (leastColumn : Int) :
    (fuel : Nat) → String → Gap → Cursor → Option (String × Bool × Cursor)
  | 0, text, g, c => some (text, g.breaks, c)
  | fuel + 1, text, g, c =>
    if c.atDocumentMark || c.startsWith '#' then some (text, g.breaks, c)
    else do
      let word ← plainWord inFlow c.rest
      let c := c.skip word.length
      -- the gap counts only when a word follows it
      let (text, g) : String × Gap :=
        if word.isEmpty then (text, g) else (text ++ g.text ++ String.ofList word, {})
      if c.atBlank || c.atBreak then
        let (g, c) ← gap leastColumn (c.rest.length + 1) g c
        if !inFlow && decide ((c.column : Int) < leastColumn) then return (text, g.breaks, c)
        else plainRest inFlow leastColumn fuel text g c
      else return (text, g.breaks, c)

/-- A plain scalar; its further lines have to be indented by `leastColumn`, unless it stands between
brackets. -/
def plain (inFlow : Bool) (leastColumn : Int) (c : Cursor) : Option (Scalar × Bool × Cursor) := do
  let (text, breaks, c) ← plainRest inFlow leastColumn (c.rest.length + 1) "" {} c
  return ({ text, isPlain := true }, breaks, c)

/-! ### Quoted scalars -/

/-- The character that an escape of one letter stands for. -/
def escape? : Char → Option Char
  | '0' => some (Char.ofNat 0)
  | 'a' => some (Char.ofNat 7)
  | 'b' => some (Char.ofNat 8)
  | 't' => some '\t'
  | '\t' => some '\t'
  | 'n' => some '\n'
  | 'v' => some (Char.ofNat 0x0B)
  | 'f' => some (Char.ofNat 0x0C)
  | 'r' => some '\r'
  | 'e' => some (Char.ofNat 0x1B)
  | ' ' => some ' '
  | '"' => some '"'
  | '/' => some '/'
  | '\\' => some '\\'
  | 'N' => some (Char.ofNat 0x85)
  | '_' => some (Char.ofNat 0xA0)
  | 'L' => some (Char.ofNat 0x2028)
  | 'P' => some (Char.ofNat 0x2029)
  | _ => none

/-- The count of digits behind an escape that gives a code point. -/
def escapeDigits? : Char → Option Nat
  | 'x' => some 2
  | 'u' => some 4
  | 'U' => some 8
  | _ => none

/-- The character with a code point. -/
def charOf? (n : Nat) : Option Char :=
  if n < 0xD800 ∨ (0xDFFF < n ∧ n < 0x110000) then some (Char.ofNat n) else none

/-- What a backslash and the characters behind it stand for, and their count. -/
def escaped? (cs : List Char) : Option (Char × Nat) := do
  let letter ← cs.head?
  match escape? letter with
  | some x => return (x, 2)
  | none =>
    let count ← escapeDigits? letter
    let digits := cs.tail.take count
    if digits.length = count then
      return (← charOf? (← Literal.natural? 16 digits), 2 + count)
    else none

/-- The rest of a quoted scalar, up to and with its closing quote. -/
def quotedRest (quote : Char) : (fuel : Nat) → String → Cursor → Option (String × Cursor)
  | 0, _, _ => none
  | fuel + 1, text, c =>
    let isSingle := quote == '\x27'
    if c.atDocumentMark then none
    else if c.atBlank || c.atBreak then do
      let (g, c) ← gap 0 (c.rest.length + 1) {} c
      quotedRest quote fuel (text ++ g.text) c
    else
      match c.rest with
      | [] => none
      | x :: rest =>
        if x == quote then
          if isSingle && rest.head? == some quote then
            quotedRest quote fuel (text.push quote) (c.skip 2)
          else some (text, c.skip)
        else if !isSingle && x == '\\' then
          match c.skip.break? with
          | some (_, next) => do
            -- an escaped line break joins the lines without a space
            let (g, c) ← gap 0 (next.rest.length + 1) { breaks := true } next
            quotedRest quote fuel (text ++ g.text) c
          | none => do
            let (y, count) ← escaped? rest
            quotedRest quote fuel (text.push y) (c.skip count)
        else quotedRest quote fuel (text.push x) c.skip

/-- A scalar in single or double quotes. -/
def quoted (quote : Char) (c : Cursor) : Option (Scalar × Cursor) := do
  let (text, c) ← quotedRest quote (c.rest.length + 1) "" c.skip
  return ({ text }, c)

/-! ### Blocks -/

/-- What the header of a block says. -/
structure BlockHeader where
  /-- `+` keeps all line breaks at the end, `-` none; otherwise one is kept. -/
  chomping : Option Char := none
  /-- The depth of the indentation, when it is given. -/
  indentation : Option Nat := none

/-- The indentation digit of a header. Zero is none. -/
def indentationDigit (c : Cursor) : Option (Option Nat × Cursor) :=
  match c.peek? with
  | some d =>
    if d == '0' then none
    else if d.isDigit then some (some (d.toNat - 48), c.skip)
    else some (none, c)
  | none => some (none, c)

/-- The chomping sign of a header. -/
def chompingSign (c : Cursor) : Option Char × Cursor :=
  if c.startsWith '+' || c.startsWith '-' then (c.peek?, c.skip) else (none, c)

/-- The header of a block, sign and digit in either order, to the end of its line. -/
def blockHeader (c : Cursor) : Option (BlockHeader × Cursor) := do
  let (sign, c) := chompingSign c
  let (digit, c) ← indentationDigit c
  -- the sign may also come second
  let (sign, c) := if sign.isNone && digit.isSome then chompingSign c else (sign, c)
  let c := c.skipWhile isBlank
  let c := if c.startsWith '#' then c.skipWhile fun x => !isBreak x else c
  if c.atLineEnd then
    return ({ chomping := sign, indentation := digit }, (c.break?.map (·.2)).getD c)
  else none

/-- Passes over empty lines and the indentation of the next line. Gives the line breaks, and the
widest indentation met; without a known indentation all spaces count as such. -/
def emptyLines (indentation : Option Nat) :
    (fuel : Nat) → (widest : Nat) → List Char → Cursor → Option (Nat × List Char × Cursor)
  | 0, widest, breaks, c => some (widest, breaks, c)
  | fuel + 1, widest, breaks, c =>
    let spaces := (c.rest.takeWhile (· == ' ')).length
    let c := c.skip (match indentation with
      | some n => min spaces (n - c.column)
      | none => spaces)
    let widest := max widest c.column
    let isInside := (indentation.map fun n => decide (c.column < n)).getD true
    if isInside && c.startsWith '\t' then none
    else
      match c.break? with
      | some (b, next) => emptyLines indentation fuel widest (breaks ++ [b]) next
      | none => some (widest, breaks, c)

/-- A block in the making. -/
structure BlockText where
  text : String := ""
  /-- The line break behind the last line. -/
  first : List Char := []
  /-- The line breaks of the empty lines behind it. -/
  more : List Char := []
  /-- Whether the last line starts with a blank. -/
  isIndented : Bool := false

/-- The lines of a block. In a folded block the break between two lines is folded unless one of them
starts with a blank. -/
def blockLines (isLiteral : Bool) (indentation : Nat) :
    (fuel : Nat) → BlockText → Cursor → Option (BlockText × Cursor)
  | 0, b, c => some (b, c)
  | fuel + 1, b, c =>
    if c.column == indentation && !c.rest.isEmpty then do
      let isIndented := c.atBlank
      let between :=
        if !isLiteral && b.first == ['\n'] && !b.isIndented && !isIndented then
          folded b.first b.more
        else b.first ++ b.more
      let (line, c) := c.span fun x => !isBreak x
      let (first, c) := match c.break? with
        | some (x, next) => ([x], next)
        | none => ([], c)
      let (_, more, c) ← emptyLines (some indentation) (c.rest.length + 1) 0 [] c
      blockLines isLiteral indentation fuel
        { text := b.text ++ String.ofList between ++ String.ofList line, first, more, isIndented } c
    else some (b, c)

/-- A literal or folded block inside a collection that is indented by `parentColumn`. -/
def block (isLiteral : Bool) (parentColumn : Int) (c : Cursor) : Option (Scalar × Cursor) := do
  let (header, c) ← blockHeader c.skip
  let known := header.indentation.map fun n => (max parentColumn 0).toNat + n
  let (widest, more, c) ← emptyLines known (c.rest.length + 1) 0 [] c
  -- without a digit in the header the first line with content decides
  let indentation := known.getD (max (max widest (parentColumn + 1).toNat) 1)
  let (b, c) ← blockLines isLiteral indentation (c.rest.length + 1) { more } c
  let kept := match header.chomping with
    | some '-' => []
    | some _ => b.first ++ b.more
    | none => b.first
  return ({ text := b.text ++ String.ofList kept, isLiteral }, c)

/-! ### Names and tags -/

/-- The name of an anchor or alias, behind its sign. -/
def anchorName (c : Cursor) : Option (String × Cursor) :=
  let (name, c) := c.skip.span isNameChar
  let ends := c.atSeparator || (c.peek?.map fun x => "?:,]\x7d%@\x60".contains x).getD false
  if name.isEmpty || !ends then none else some (String.ofList name, c)

/-- Whether a character may stand in a tag. Commas and brackets may only in a full address. -/
def isTagChar (isFull : Bool) (c : Char) : Bool :=
  isNameChar c || ";/?:@&=+$.!~*()%\x27".contains c || (isFull && ",[]".contains c)

/-- The bytes of characters, of which a percent sign with two digits stands for one. -/
def tagBytes : (fuel : Nat) → List Char → Option (List UInt8)
  | 0, _ => some []
  | _, [] => some []
  | fuel + 1, '%' :: rest => do
    let digits := rest.take 2
    if digits.length = 2 then
      return UInt8.ofNat (← Literal.natural? 16 digits) :: (← tagBytes fuel (rest.drop 2))
    else none
  | fuel + 1, c :: rest => (tagBytes fuel rest).map (c.toString.toUTF8.toList ++ ·)

/-- The characters of a tag with its escapes resolved. -/
def tagText (c : Cursor) (isFull : Bool) : Option (String × Cursor) := do
  let (cs, c) := c.span (isTagChar isFull)
  let bytes ← tagBytes (cs.length + 1) cs
  return (← String.fromUTF8? (ByteArray.mk bytes.toArray), c)

/-- A tag as it was written: in full, or as a handle and what follows it. -/
structure TagText where
  handle : String
  suffix : String
deriving DecidableEq, Inhabited

/-- A tag. Between brackets a comma may follow at once. -/
def tag (inFlow : Bool) (c : Cursor) : Option (TagText × Cursor) := do
  let (found, c) : TagText × Cursor ←
    if c.skip.startsWith '<' then do
      let (text, c) ← tagText (c.skip 2) true
      if text.isEmpty || !c.startsWith '>' then none
      else pure ({ handle := "", suffix := text }, c.skip)
    else do
      let (name, next) := c.skip.span isNameChar
      if next.startsWith '!' then
        let (text, c) ← tagText next.skip false
        if text.isEmpty then none
        else pure ({ handle := "!" ++ String.ofList name ++ "!", suffix := text }, c)
      else
        let (text, next) ← tagText next false
        let suffix := String.ofList name ++ text
        if suffix.isEmpty then pure ({ handle := "", suffix := "!" }, next)
        else pure ({ handle := "!", suffix }, next)
  if c.atSeparator || (inFlow && c.startsWith ',') then return (found, c) else none

/-! ### Directives -/

/-- A line in front of a document. -/
inductive Directive where
  /-- The version of the notation. -/
  | version
  /-- What a handle stands for. -/
  | tag (handle meaning : String)

/-- A number of at most nine digits. -/
def versionPart (c : Cursor) : Option (Nat × Cursor) :=
  let (digits, c) := c.span Char.isDigit
  if 9 < digits.length then none else (Literal.natural? 10 digits).map (·, c)

/-- The version, which has to be 1.1 or 1.2. -/
def versionDirective (c : Cursor) : Option (Directive × Cursor) := do
  let (major, c) ← versionPart (c.skipWhile isBlank)
  if !c.startsWith '.' then none
  else do
    let (minor, c) ← versionPart c.skip
    if major = 1 ∧ (minor = 1 ∨ minor = 2) then return (.version, c) else none

/-- A handle: `!`, or a name between two of them. -/
def tagHandle (c : Cursor) : Option (String × Cursor) :=
  if !c.startsWith '!' then none
  else
    let (name, next) := c.skip.span isNameChar
    if next.startsWith '!' then some ("!" ++ String.ofList name ++ "!", next.skip)
    else if name.isEmpty then some ("!", next)
    else none

/-- A handle and its meaning. -/
def tagDirective (c : Cursor) : Option (Directive × Cursor) := do
  let (handle, c) ← tagHandle (c.skipWhile isBlank)
  if !c.atBlank then none
  else do
    let (meaning, c) ← tagText (c.skipWhile isBlank) true
    if meaning.isEmpty || !c.atSeparator then none else return (.tag handle meaning, c)

/-- A directive, to the end of its line. -/
def directive (c : Cursor) : Option (Directive × Cursor) := do
  let (name, c) := c.skip.span isNameChar
  if !c.atSeparator then none
  else do
    let (found, c) ← match String.ofList name with
      | "YAML" => versionDirective c
      | "TAG" => tagDirective c
      | _ => none
    let c := c.skipWhile isBlank
    let c := if c.startsWith '#' then c.skipWhile fun x => !isBreak x else c
    if c.atLineEnd then return (found, (c.break?.map (·.2)).getD c) else none

end Lexeme

end SchedulerPolicy.Yaml
