/-!
# Double-precision numbers

A number of the documents that is not an integer is a binary64 number. It is held as what it means,
a sign, a significand and a binary exponent, so that reading one from decimal digits and writing one
as decimal digits are statements about natural numbers.

* `Double.ofDecimal` reads `digits · 10 ^ exponent`, rounded to the nearest double with ties going
  to the even significand.
* `Double.agrees` is the comparison of the documents: the two zeros agree, and so do all
  not-a-numbers. It is an equivalence (`agrees_refl`, `agrees_symm`, `agrees_trans`).
-/

namespace SchedulerPolicy

/-- A binary64 number. A finite one is `± significand · 2 ^ exponent`, where the significand has 53
bits, or fewer at the least exponent. -/
inductive Double where
  | finite (negative : Bool) (significand : Nat) (exponent : Int)
  | infinite (negative : Bool)
  | nan
deriving DecidableEq, Inhabited

namespace Double

/-- The exponent of the doubles nearest to zero. -/
def leastExponent : Int := -1074

/-- The exponent of the largest doubles. -/
def greatestExponent : Int := 971

/-- Zero, with a sign. -/
def zero (negative : Bool) : Double := .finite negative 0 leastExponent

/-- Whether a number is neither infinite nor a not-a-number. -/
def isFinite : Double → Bool
  | .finite .. => true
  | _ => false

/-- The quotient of two natural numbers rounded to the nearest one, a tie going to the even one. -/
def roundedQuotient (num den : Nat) : Nat :=
  let q := num / den
  let twice := 2 * (num % den)
  if twice < den then q
  else if den < twice then q + 1
  else if q % 2 = 0 then q else q + 1

/-- The significand of `num / den` at a binary exponent, rounded. -/
def significandAt (num den : Nat) (exponent : Int) : Nat :=
  roundedQuotient (num <<< (-exponent).toNat) (den <<< exponent.toNat)

/-- The double nearest to the positive fraction `num / den`. The exponent is the least one at which
the significand fits into 53 bits. -/
def ofFraction (negative : Bool) (num den : Nat) : Double :=
  let guess := max leastExponent ((Nat.log2 num : Int) - Nat.log2 den - 53)
  let floorAt (e : Int) := (num <<< (-e).toNat) / (den <<< e.toNat)
  -- the guess is the exponent or the one below it
  let exponent := if floorAt guess < 1 <<< 53 then guess else guess + 1
  let significand := significandAt num den exponent
  -- rounding up may have made a power of two with one bit too many
  let (significand, exponent) :=
    if significand < 1 <<< 53 then (significand, exponent) else (1 <<< 52, exponent + 1)
  if greatestExponent < exponent then .infinite negative
  else .finite negative significand exponent

/-- The number of decimal digits of a natural number; zero has one. -/
def digitCount (n : Nat) : Nat := (Nat.toDigits 10 n).length

/-- The double nearest to `digits · 10 ^ exponent`. A number of more than 310 places is infinite,
and one that starts more than 330 places after the point is zero. -/
def ofDecimal (negative : Bool) (digits : Nat) (exponent : Int) : Double :=
  if digits = 0 then zero negative
  else
    let places := digitCount digits + exponent
    if 310 < places then .infinite negative
    else if places < -330 then zero negative
    else ofFraction negative (digits * Nat.pow 10 exponent.toNat) (Nat.pow 10 (-exponent).toNat)

/-! ### Comparison -/

/-- Whether two doubles are the same number. Zero has two spellings, and a not-a-number is the same
as any other. -/
def agrees : Double → Double → Bool
  | .finite s m e, .finite t n f => m == n && e == f && (s == t || m == 0)
  | .infinite s, .infinite t => s == t
  | .nan, .nan => true
  | _, _ => false

theorem agrees_refl (x : Double) : x.agrees x = true := by
  cases x <;> simp [agrees]

theorem agrees_symm {x y : Double} (h : x.agrees y = true) : y.agrees x = true := by
  cases x <;> cases y <;> simp_all [agrees]
  grind

theorem agrees_trans {x y z : Double} (h : x.agrees y = true) (h' : y.agrees z = true) :
    x.agrees z = true := by
  cases x <;> cases y <;> cases z <;> simp_all [agrees]
  grind

end Double

end SchedulerPolicy
