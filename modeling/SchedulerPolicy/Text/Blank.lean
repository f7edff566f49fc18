/-!
# Blank text

A name that consists of nothing but white space names nothing. White space is the Unicode property
`White_Space`, twenty-five characters in all, so a no-break space or an ideographic space is as
blank as a plain one, and a zero-width space is not. A text is blank (`isBlank`) when it has no
other characters, and `trim` drops the blank characters at both ends of one.
-/

namespace SchedulerPolicy.Text

/-- The characters of the Unicode property `White_Space`. -/
def isBlankChar (c : Char) : Bool :=
  let n := c.toNat
  (0x09 ≤ n && n ≤ 0x0D) || n == 0x20 || n == 0x85 || n == 0xA0 || n == 0x1680 ||
    (0x2000 ≤ n && n ≤ 0x200A) || n == 0x2028 || n == 0x2029 || n == 0x202F || n == 0x205F ||
    n == 0x3000

/-- The characters without the blank ones at both ends. -/
def trimChars (cs : List Char) : List Char :=
  ((cs.dropWhile isBlankChar).reverse.dropWhile isBlankChar).reverse

/-- The text without the blank characters at both ends. -/
def trim (s : String) : String :=
  String.ofList (trimChars s.toList)

/-- Whether the text holds nothing but blank characters. The empty text is blank. -/
def isBlank (s : String) : Bool :=
  s.toList.all isBlankChar

end SchedulerPolicy.Text
