import TypeCatalog.Number.Double
import TypeCatalog.Text.Classes

/-! Decimal text of numbers. Reading rounds a decimal once to the nearest binary number. Writing takes the fewest
digits that read back, the nearest of those to the number, and lays them out positionally unless the exponent is far
from zero. -/

namespace TypeCatalog

/-- A decimal number `± coefficient * 10 ^ exponent`. -/
structure Decimal where
  negative : Bool
  coefficient : Nat
  exponent : Int
  deriving DecidableEq, Repr

/-- The decimal digits of a number, without leading zeros. -/
def natDigits (n : Nat) : List Char := Nat.toDigits 10 n

/-- The decimal text of an integer. -/
def intDigits (n : Int) : List Char :=
  if n < 0 then '-' :: natDigits n.natAbs else natDigits n.natAbs

/-- The greatest number of decimal digits that is read as one integer, or written for one. -/
def digitLimit : Nat := 4300

/-- The integer that decimal digits spell, unless there are too many of them. Leading zeros count. -/
def readNat? (digits : List Char) : Option Nat :=
  if digits.length ≤ digitLimit then some (Text.digitsValue digits) else none

/-- The text of an integer, unless it has too many digits. -/
def writeInt? (n : Int) : Option String :=
  if (natDigits n.natAbs).length ≤ digitLimit then some (String.ofList (intDigits n)) else none

namespace Decimal

/-- The nearest binary number. Beyond `10 ^ 310` every decimal is infinite, and below `10 ^ (-330)` it is zero. -/
def toDouble (decimal : Decimal) : Double :=
  let scale : Int := (natDigits decimal.coefficient).length + decimal.exponent
  if decimal.coefficient = 0 || scale < -330 then Double.zero decimal.negative
  else if 310 < scale then .infinite decimal.negative
  else if 0 ≤ decimal.exponent then
    Double.ofRatio decimal.negative (decimal.coefficient * Nat.pow 10 decimal.exponent.toNat) 1
  else Double.ofRatio decimal.negative decimal.coefficient (Nat.pow 10 (-decimal.exponent).toNat)

/-- The decimal with the given digits before and after the point and the given power of ten. -/
def ofDigits (negative : Bool) (whole fraction : List Char) (exponent : Int) : Decimal :=
  ⟨negative, Text.digitsValue (whole ++ fraction), exponent - fraction.length⟩

/-- Takes a sign off a text. -/
def takeSign : List Char → Bool × List Char
  | '-' :: rest => (true, rest)
  | '+' :: rest => (false, rest)
  | rest => (false, rest)

/-- Reads the power of ten at the end of a decimal, which may be missing. -/
def exponent? : List Char → Option Int
  | [] => some 0
  | mark :: rest =>
    if mark == 'e' || mark == 'E' then
      let (negative, digits) := takeSign rest
      if digits.isEmpty || !digits.all Text.isDigit then none
      else some (if negative then -(Text.digitsValue digits : Int) else Text.digitsValue digits)
    else none

/-- Reads an unsigned decimal: digits with a point among or around them, and a power of ten. -/
def unsigned? (negative : Bool) (text : List Char) : Option Decimal :=
  let whole := text.takeWhile Text.isDigit
  let rest := text.dropWhile Text.isDigit
  let (fraction, rest) := match rest with
    | '.' :: tail => (tail.takeWhile Text.isDigit, tail.dropWhile Text.isDigit)
    | _ => ([], rest)
  if whole.isEmpty && fraction.isEmpty then none
  else (exponent? rest).map (ofDigits negative whole fraction)

end Decimal

namespace Double

/-- The real numbers that round to a positive number, all multiplied by four: the number itself between its two ends,
as numerators over one denominator. Below a power of two the neighbour is only half as far. -/
private def neighbourhood (mantissa : Nat) (exponent : Int) : Nat × Nat × Nat × Nat :=
  let below := if mantissa = Nat.pow 2 52 && minExponent < exponent then 1 else 2
  let (factor, denominator) := scaled 1 1 (2 - exponent)
  ((4 * mantissa - below) * factor, 4 * mantissa * factor, (4 * mantissa + 2) * factor, denominator)

/-- The power of ten at or below a positive quotient. -/
private def decimalExponent (numerator denominator : Nat) : Int :=
  let guess : Int := ((natDigits numerator).length : Int) - (natDigits denominator).length
  let reached :=
    if 0 ≤ guess then denominator * Nat.pow 10 guess.toNat ≤ numerator
    else denominator ≤ numerator * Nat.pow 10 (-guess).toNat
  if reached then guess else guess - 1

/-- The decimal of the given number of digits that reads back as the number, if there is one: the number's neighbours
on the decimal grid are tried, and of two the nearer is taken, the even one if they are equally near. -/
private def roundTrip? (mantissa : Nat) (exponent : Int) (count : Nat) : Option (Nat × Int) :=
  let (low, value, high, denominator) := neighbourhood mantissa exponent
  let power := decimalExponent value denominator - count + 1
  let unit := if 0 ≤ power then denominator * Nat.pow 10 power.toNat else denominator
  let grow (n : Nat) := if 0 ≤ power then n else n * Nat.pow 10 (-power).toNat
  let inside (n : Nat) : Bool :=
    if mantissa % 2 == 0 then grow low ≤ n * unit && n * unit ≤ grow high
    else grow low < n * unit && n * unit < grow high
  let down := grow value / unit
  let rest := grow value % unit
  match inside down, inside (down + 1) with
  | true, true =>
    some (if 2 * rest < unit || (2 * rest == unit && down % 2 == 0) then down else down + 1, power)
  | true, false => some (down, power)
  | false, true => some (down + 1, power)
  | false, false => none

/-- The fewest significant digits that read back as a positive number, and the power of ten of the last of them. -/
def shortest (mantissa : Nat) (exponent : Int) : Nat × Int :=
  let tries := (List.range 17).map (· + 1)
  (tries.findSome? (roundTrip? mantissa exponent)).getD (0, 0)

/-- Where positional writing ends: exponents from `-4` to `15` are written out. -/
def isPositional (exponent : Int) : Bool := -4 ≤ exponent && exponent < 16

/-- Lays out significant digits whose first stands for the given power of ten. Positional text has at least one digit
on each side of the point; an exponent has a sign and at least two digits. -/
def layout (digits : List Char) (exponent : Int) : List Char :=
  if isPositional exponent then
    if exponent < 0 then ['0', '.'] ++ List.replicate (-exponent - 1).toNat '0' ++ digits
    else
      let places := exponent.toNat + 1
      let whole := digits.take places
      let fraction := digits.drop places
      whole ++ List.replicate (places - whole.length) '0' ++ ['.'] ++ (if fraction.isEmpty then ['0'] else fraction)
  else
    let tail := digits.drop 1
    let power := natDigits exponent.natAbs
    digits.take 1 ++ (if tail.isEmpty then [] else '.' :: tail) ++ ['e', if exponent < 0 then '-' else '+'] ++
      List.replicate (2 - power.length) '0' ++ power

/-- The text of a number: the fewest digits that read back. -/
def text : Double → String
  | .nan => "nan"
  | .infinite negative => if negative then "-inf" else "inf"
  | .finite negative mantissa exponent =>
    let body :=
      if mantissa = 0 then ['0', '.', '0']
      else
        let (coefficient, power) := shortest mantissa exponent
        let all := natDigits coefficient
        let kept := (all.reverse.dropWhile (· == '0')).reverse
        layout kept (power + all.length - 1)
    String.ofList (if negative then '-' :: body else body)

end Double

end TypeCatalog
