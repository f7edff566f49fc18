import SchedulerPolicy.Decimal.Literal

/-!
# Plain scalars

What the text of a plain scalar stands for. `plain` tries null, truth values, whole numbers and
decimal numbers in this order, and whatever is none of them is a text. Digits behind a leading zero
(`007`) are a text too, though they look like a number (`isZeroPadded`).

The writer asks the same question (`needsQuotes`): a text that would be read as anything but a text
is written in quotes.
-/

namespace SchedulerPolicy.Yaml

/-- What a plain scalar stands for. A whole number has at most 128 bits. -/
inductive Plain where
  | null
  | bool (b : Bool)
  | int (n : Int)
  | float (x : Double)
  | text
deriving DecidableEq

/-- Whether a text spells null. The empty text does not. -/
def isNull (s : String) : Bool := s == "~" || s == "null" || s == "Null" || s == "NULL"

/-- The truth value that a text spells. -/
def bool? (s : String) : Option Bool :=
  if s == "true" || s == "True" || s == "TRUE" then some true
  else if s == "false" || s == "False" || s == "FALSE" then some false
  else none

/-- Whether a text is a zero with further digits behind it, a sign in front aside. -/
def isZeroPadded (cs : List Char) : Bool :=
  let unsigned := match cs with
    | '+' :: ds => ds
    | '-' :: ds => ds
    | ds => ds
  match unsigned with
  | '0' :: d :: ds => (d :: ds).all Char.isDigit
  | _ => false

/-- The digits of a number in another base than ten, and the base. -/
def based? : List Char → Option (Nat × List Char)
  | '0' :: 'x' :: ds => some (16, ds)
  | '0' :: 'o' :: ds => some (8, ds)
  | '0' :: 'b' :: ds => some (2, ds)
  | _ => none

/-- The size of the number that digits spell, after `0x`, `0o` or `0b` in another base than ten. -/
def magnitude? (cs : List Char) : Option Nat :=
  match based? cs with
  | some (base, ds) => Literal.natural? base ds
  | none => if isZeroPadded cs then none else Literal.natural? 10 cs

/-- The natural number that a text spells, with or without a plus sign. -/
def natural? : List Char → Option Nat
  | '+' :: cs => magnitude? cs
  | cs => magnitude? cs

/-- The whole number of at most 128 bits that a text spells. -/
def int? (cs : List Char) : Option Int :=
  match cs with
  | '-' :: ds => (magnitude? ds).bind fun n => if n ≤ 1 <<< 127 then some (-(n : Int)) else none
  | cs => (natural? cs).bind fun n => if n < 1 <<< 128 then some (n : Int) else none

/-- The infinity or not-a-number that a text spells. -/
def special? (s : String) : Option Double :=
  if s == ".inf" || s == ".Inf" || s == ".INF" || s == "+.inf" || s == "+.Inf" || s == "+.INF" then
    some (.infinite false)
  else if s == "-.inf" || s == "-.Inf" || s == "-.INF" then some (.infinite true)
  else if s == ".nan" || s == ".NaN" || s == ".NAN" then some .nan
  else none

/-- The finite double that a decimal literal spells; a literal that is out of range spells none. -/
def finite? (cs : List Char) : Option Double := (Literal.decimal? cs).filter Double.isFinite

/-- The double that a text spells. -/
def float? (s : String) : Option Double := (special? s).or (finite? s.toList)

/-- What the text of a plain scalar stands for. -/
def plain (s : String) : Plain :=
  if s.isEmpty || isNull s then .null
  else
    match bool? s with
    | some b => .bool b
    | none =>
      match int? s.toList with
      | some n => .int n
      | none =>
        if isZeroPadded s.toList then .text
        else
          match float? s with
          | some x => .float x
          | none => .text

/-- Whether a text has to be quoted so as not to be taken for something else. -/
def needsQuotes (s : String) : Bool := plain s != .text || isZeroPadded s.toList

end SchedulerPolicy.Yaml
