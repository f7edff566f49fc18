import SchedulerPolicy.Decimal.Double

/-!
# The shortest decimal of a double

A double is written with the fewest significant digits that read back as the same double, and of the
decimals with so few digits with the one nearest to it. Both neighbours of the double on the grid of
`count`-digit decimals are tried, for one digit, two digits and so on; seventeen digits always read
back.

`Double.text` lays the digits out: positionally while the decimal point stands at most sixteen
places to the right of the first digit and at most four zeros follow it, and with an exponent
otherwise. A number in positional layout always shows a fractional part.
-/

namespace SchedulerPolicy

/-- A positive decimal: `digits · 10 ^ exponent`. -/
structure Decimal where
  digits : Nat
  exponent : Int
deriving DecidableEq

namespace Decimal

/-- The exponent at which the positive fraction `num / den` has `count` digits before the point:
the greatest one at which the quotient still reaches `10 ^ (count - 1)`. -/
def gridExponent (num den count : Nat) : Int :=
  let floorAt (p : Int) := num * Nat.pow 10 (-p).toNat / (den * Nat.pow 10 p.toNat)
  let guess : Int := ((Double.digitCount num : Int) - Double.digitCount den) - count
  if Nat.pow 10 (count - 1) ≤ floorAt (guess + 1) then guess + 1 else guess

/-- A point of the grid of `count`-digit decimals. The upper end of the grid has one digit more, and
is the lower end of the next coarser step. -/
def gridPoint (count n : Nat) (exponent : Int) : Decimal :=
  if n = Nat.pow 10 count then ⟨Nat.pow 10 (count - 1), exponent + 1⟩ else ⟨n, exponent⟩

/-- The `count`-digit decimal that `target` reads back from, if one of the two neighbours of
`num / den` on that grid does. Of two the nearer counts, and at a tie the even one. -/
def neighbour? (target : Double) (num den count : Nat) : Option Decimal :=
  let p := gridExponent num den count
  let scaledNum := num * Nat.pow 10 (-p).toNat
  let scaledDen := den * Nat.pow 10 p.toNat
  -- the double lies between `low` and the next point of the grid
  let low := scaledNum / scaledDen
  let readsBack (n : Nat) : Bool := Double.ofDecimal false n p == target
  match readsBack low, readsBack (low + 1) with
  | true, true => some (gridPoint count (Double.roundedQuotient scaledNum scaledDen) p)
  | true, false => some (gridPoint count low p)
  | false, true => some (gridPoint count (low + 1) p)
  | false, false => none

/-- Tries the grids of `count` digits and more, `tries` of them. -/
def shortestFrom (target : Double) (num den : Nat) : (tries count : Nat) → Decimal
  | 0, _ => ⟨num / den, 0⟩
  | tries + 1, count =>
    (neighbour? target num den count).getD (shortestFrom target num den tries (count + 1))

/-- The shortest decimal of the positive double `significand · 2 ^ exponent`. -/
def shortest (significand : Nat) (exponent : Int) : Decimal :=
  shortestFrom (.finite false significand exponent)
    (significand <<< exponent.toNat) (1 <<< (-exponent).toNat) 17 1

/-- Digits and exponent laid out as text. -/
def text (d : Decimal) : String :=
  let digits := Nat.toDigits 10 d.digits
  let point := digits.length + d.exponent
  let zeros (n : Int) := List.replicate n.toNat '0'
  let chars :=
    if 0 ≤ d.exponent ∧ point ≤ 16 then digits ++ zeros d.exponent ++ ['.', '0']
    else if 0 < point ∧ point ≤ 16 then
      digits.take point.toNat ++ '.' :: digits.drop point.toNat
    else if -5 < point ∧ point ≤ 0 then '0' :: '.' :: zeros (-point) ++ digits
    else
      let tail := 'e' :: (toString (point - 1)).toList
      match digits with
      | [d] => d :: tail
      | d :: ds => d :: '.' :: ds ++ tail
      | [] => tail
  String.ofList chars

end Decimal

/-- The text of a finite double; `none` for the others, whose spelling each format has its own. -/
def Double.text? : Double → Option String
  | .finite negative significand exponent =>
    let magnitude :=
      if significand = 0 then "0.0" else (Decimal.shortest significand exponent).text
    some (if negative then "-" ++ magnitude else magnitude)
  | _ => none

end SchedulerPolicy
