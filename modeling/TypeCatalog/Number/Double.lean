/-! Binary floating point numbers of 64 bits as exact values. A finite number is a sign, a mantissa below `2 ^ 53` and
an exponent, so every operation is exact arithmetic followed by one rounding to nearest. -/

namespace TypeCatalog

/-- A binary64 number. A finite one is `± mantissa * 2 ^ exponent`, where the mantissa is at least `2 ^ 52` unless the
exponent is the least one, `-1074`. -/
inductive Double where
  | nan
  | infinite (negative : Bool)
  | finite (negative : Bool) (mantissa : Nat) (exponent : Int)
  deriving DecidableEq, Repr, Inhabited

/-- A place on the number line closed by two ends. Finite places are quotients with a positive denominator. -/
inductive Magnitude where
  | bottom
  | ratio (numerator : Int) (denominator : Nat)
  | top
  deriving DecidableEq, Repr

namespace Magnitude

def ofInt (n : Int) : Magnitude := .ratio n 1

/-- The order of the number line. -/
def lt : Magnitude → Magnitude → Bool
  | .bottom, .bottom => false
  | .bottom, _ => true
  | .ratio .., .bottom => false
  | .ratio a b, .ratio c d => a * d < c * b
  | .ratio .., .top => true
  | .top, _ => false

/-- Equality of places, whichever quotient spells them. -/
def same : Magnitude → Magnitude → Bool
  | .bottom, .bottom => true
  | .top, .top => true
  | .ratio a b, .ratio c d => a * d == c * b
  | _, _ => false

end Magnitude

namespace Double

/-- The least exponent, that of the subnormal numbers. -/
def minExponent : Int := -1074

/-- The greatest exponent of a finite number. -/
def maxExponent : Int := 971

def zero (negative : Bool) : Double := .finite negative 0 minExponent

/-- The nearest integer to a quotient; a half goes to the even neighbour. -/
def roundQuotient (numerator denominator : Nat) : Nat :=
  let quotient := numerator / denominator
  let twice := 2 * (numerator % denominator)
  if twice < denominator then quotient
  else if denominator < twice then quotient + 1
  else quotient + quotient % 2

/-- The quotient divided by `2 ^ exponent`, as numerator and denominator. -/
def scaled (numerator denominator : Nat) (exponent : Int) : Nat × Nat :=
  if 0 ≤ exponent then (numerator, denominator * Nat.pow 2 exponent.toNat)
  else (numerator * Nat.pow 2 (-exponent).toNat, denominator)

/-- The exponent with which a positive quotient is written: its mantissa has 53 bits, or the exponent is the least. -/
def exponentOf (numerator denominator : Nat) : Int :=
  let guess : Int := (numerator.log2 : Int) - (denominator.log2 : Int) - 52
  let (n, d) := scaled numerator denominator guess
  max (if n < d * Nat.pow 2 52 then guess - 1 else guess) minExponent

/-- The number nearest to a quotient, ties to the even mantissa. What is too large becomes infinite. -/
def ofRatio (negative : Bool) (numerator denominator : Nat) : Double :=
  if numerator = 0 then zero negative
  else
    let exponent := exponentOf numerator denominator
    let (n, d) := scaled numerator denominator exponent
    let mantissa := roundQuotient n d
    let (mantissa, exponent) := if mantissa = Nat.pow 2 53 then (Nat.pow 2 52, exponent + 1) else (mantissa, exponent)
    if maxExponent < exponent then .infinite negative else .finite negative mantissa exponent

/-- The number nearest to an integer. -/
def ofInt (n : Int) : Double := ofRatio (n < 0) n.natAbs 1

/-- An integer that is nearest to no finite number. -/
def overflows (n : Int) : Bool := Nat.pow 2 1024 - Nat.pow 2 970 ≤ n.natAbs

def isFinite : Double → Bool
  | .finite .. => true
  | _ => false

/-- The place of a number on the line; a NaN has none, and both zeros have the same. -/
def magnitude? : Double → Option Magnitude
  | .nan => none
  | .infinite negative => some (if negative then .bottom else .top)
  | .finite negative mantissa exponent =>
    let (n, d) := scaled mantissa 1 (-exponent)
    some (.ratio (if negative then -(n : Int) else n) d)

/-- Whether a finite number has no fractional part. -/
def isIntegral : Double → Bool
  | .finite _ mantissa exponent => 0 ≤ exponent || mantissa % Nat.pow 2 (-exponent).toNat == 0
  | _ => false

private def negated : Double → Bool
  | .infinite negative => negative
  | .finite negative .. => negative
  | .nan => false

/-- The nearest number to a rational that is the exact result of an operation; a zero takes the given sign. -/
private def ofExact (zeroNegative : Bool) (numerator : Int) (denominator : Nat) : Double :=
  if numerator = 0 then zero zeroNegative else ofRatio (numerator < 0) numerator.natAbs denominator

/-- The rounded sum. Opposite infinities have no sum, and a zero sum is negative only if both terms are. -/
def add (x y : Double) : Double :=
  match x.magnitude?, y.magnitude? with
  | some (.ratio a b), some (.ratio c d) => ofExact (negated x && negated y) (a * d + c * b) (b * d)
  | some (.ratio ..), some _ => y
  | some _, some (.ratio ..) => x
  | some m, some n => if m == n then x else .nan
  | _, _ => .nan

/-- The rounded product. A zero times an infinity has none, and equal signs give a positive product. -/
def mul (x y : Double) : Double :=
  let negative := negated x != negated y
  match x.magnitude?, y.magnitude? with
  | some (.ratio a b), some (.ratio c d) => ofExact negative (a * c) (b * d)
  | some (.ratio a _), some _ => if a = 0 then .nan else .infinite negative
  | some _, some (.ratio c _) => if c = 0 then .nan else .infinite negative
  | some _, some _ => .infinite negative
  | _, _ => .nan

def neg : Double → Double
  | .nan => .nan
  | .infinite negative => .infinite !negative
  | .finite negative mantissa exponent => .finite (!negative) mantissa exponent

end Double

end TypeCatalog
