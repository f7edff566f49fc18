import SchedulerPolicy.Decimal.Double

/-!
# Decimal literals

The spelling of numbers that the formats share. A whole number is a run of digits of one base
(`natural?`); a decimal literal is digits with at most one point among or around them and an
optional exponent (`decimal?`), as in `1.`, `.5` and `1.e2`. Signs in front belong to the formats,
which differ in where they allow them.
-/

namespace SchedulerPolicy.Literal

/-- The value of a digit, in any base up to sixteen. -/
def digit? (c : Char) : Option Nat :=
  if '0' ≤ c ∧ c ≤ '9' then some (c.toNat - 48)
  else if 'a' ≤ c ∧ c ≤ 'f' then some (c.toNat - 87)
  else if 'A' ≤ c ∧ c ≤ 'F' then some (c.toNat - 55)
  else none

/-- Reads digits of a base on top of those already read. -/
def naturalFrom (base : Nat) (value : Nat) : List Char → Option Nat
  | [] => some value
  | c :: cs =>
    match digit? c with
    | some d => if d < base then naturalFrom base (base * value + d) cs else none
    | none => none

/-- The number that a non-empty run of digits of a base spells. -/
def natural? (base : Nat) (cs : List Char) : Option Nat :=
  if cs.isEmpty then none else naturalFrom base 0 cs

/-- A run of decimal digits, possibly empty, as a number on top of `value`. -/
def digitsFrom (value : Nat) (cs : List Char) : Nat :=
  cs.foldl (fun n c => 10 * n + (c.toNat - 48)) value

/-- The exponent that follows a mantissa: nothing, or `e` with a sign and at least one digit. -/
def exponent? : List Char → Option Int
  | [] => some 0
  | c :: cs =>
    if c = 'e' ∨ c = 'E' then
      match cs with
      | '-' :: ds => if ds.all Char.isDigit then (natural? 10 ds).map fun n => -(n : Int) else none
      | '+' :: ds => if ds.all Char.isDigit then (natural? 10 ds).map Int.ofNat else none
      | ds => if ds.all Char.isDigit then (natural? 10 ds).map Int.ofNat else none
    else none

/-- The double that an unsigned decimal literal spells. There is at least one digit in front of the
exponent. -/
def unsigned? (negative : Bool) (cs : List Char) : Option Double :=
  let whole := cs.takeWhile Char.isDigit
  let afterWhole := cs.dropWhile Char.isDigit
  let (fraction, rest) :=
    match afterWhole with
    | '.' :: more => (more.takeWhile Char.isDigit, more.dropWhile Char.isDigit)
    | more => ([], more)
  if whole.isEmpty && fraction.isEmpty then none
  else
    (exponent? rest).map fun e =>
      Double.ofDecimal negative (digitsFrom (digitsFrom 0 whole) fraction) (e - fraction.length)

/-- The double that a decimal literal with an optional sign spells. -/
def decimal? : List Char → Option Double
  | '-' :: cs => unsigned? true cs
  | '+' :: cs => unsigned? false cs
  | cs => unsigned? false cs

end SchedulerPolicy.Literal
