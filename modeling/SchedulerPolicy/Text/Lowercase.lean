import SchedulerPolicy.Text.CaseTable

/-!
# Lower case

`lowercase` is full Unicode lower-casing: every capital becomes its small letter, U+0130 becomes two
characters, and a capital sigma at the end of a word becomes the final sigma. A sigma ends a word
when the nearest character before it that is not case-ignorable takes part in case and the nearest
one after it does not.

`eqIgnoringAsciiCase` is the narrower comparison by which repositories are recognised: the letters
`A` to `Z` match their small forms, and nothing else is folded.
-/

namespace SchedulerPolicy.Text

/-- Whether a table of ascending ranges holds a code point. -/
def inRanges (table : Array (Nat × Nat)) (n : Nat) : Bool :=
  table.any fun range => range.1 ≤ n && n ≤ range.2

/-- Whether a character takes part in case. -/
def isCased (c : Char) : Bool := inRanges casedRanges c.toNat

/-- Whether the search for a cased neighbour passes over a character. -/
def isCaseIgnorable (c : Char) : Bool := inRanges caseIgnorableRanges c.toNat

/-- Whether a run of capitals holds a code point. -/
def CapitalRun.holds (run : CapitalRun) (n : Nat) : Bool :=
  run.first ≤ n && n ≤ run.last && (n - run.first) % run.step == 0

/-- The small form of a character on its own: one character, except that U+0130 is `i` with a
combining dot above. -/
def lowerChar (c : Char) : List Char :=
  if c.toNat = 0x130 then ['i', Char.ofNat 0x307]
  else if c.toNat < 0x80 then [c.toLower]
  else
    match smallLetters.find? (·.holds c.toNat) with
    | some run => [Char.ofNat (Int.toNat (c.toNat + run.shift))]
    | none => [c]

/-- Whether the nearest character that is not case-ignorable takes part in case. -/
def meetsCased (cs : List Char) : Bool :=
  ((cs.dropWhile isCaseIgnorable).head?.map isCased).getD false

/-- Lower-cases characters, given those already passed in reverse order. -/
def lowerFrom (before : List Char) : List Char → List Char
  | [] => []
  | c :: after =>
    let small :=
      if c.toNat = 0x3A3 then
        if meetsCased before && !meetsCased after then [Char.ofNat 0x3C2] else [Char.ofNat 0x3C3]
      else lowerChar c
    small ++ lowerFrom (c :: before) after

/-- The text in lower case. -/
def lowercase (s : String) : String := String.ofList (lowerFrom [] s.toList)

/-- Whether two texts are equal once `A` to `Z` are read as `a` to `z`. -/
def eqIgnoringAsciiCase (a b : String) : Bool :=
  a.toList.map Char.toLower == b.toList.map Char.toLower

end SchedulerPolicy.Text
