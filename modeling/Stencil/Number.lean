import Stencil.Text.Basic

/-!
Numbers of template data. An integer fits a signed or an unsigned word of 64
bits; every other number is a finite number of the binary64 format. The two kinds
are never equal, and neither kind holds an infinity or a value that is no number.

Numbers of the format are held exactly, as a sign, a significand and an exponent;
zero keeps its sign. The only way in from a decimal is rounding to nearest, a tie
going to the even significand, so a text and the number it denotes are related by
arithmetic on natural numbers alone.

The text of such a number has the fewest decimal digits that read back as it. The
decimals that round to a number form an interval around it. For one digit, two
digits and so on the two neighbours of the number on that decimal grid are tried;
the first grid with a neighbour inside the interval gives the digits, and the
nearer neighbour is taken when both are inside.
-/

namespace Stencil

/-- The number `±significand · 2 ^ exponent`. The significand has 53 bits
unless the exponent is the least one, so every number has one form and only
the two zeros share a value. -/
structure Binary64 where
  negative : Bool
  significand : Nat
  exponent : Int
  canonical : significand < Nat.pow 2 53 ∧ -1074 ≤ exponent ∧ exponent ≤ 971 ∧
    (exponent = -1074 ∨ Nat.pow 2 52 ≤ significand)
  deriving DecidableEq

namespace Binary64

def zero (negative : Bool) : Binary64 :=
  ⟨negative, 0, -1074, by decide⟩

def isZero (x : Binary64) : Bool :=
  x.significand == 0

/-- A normal number has all 53 bits; zero and the subnormal numbers do not. -/
def isNormal (x : Binary64) : Bool :=
  Nat.pow 2 52 ≤ x.significand

/-- Equality of values: the two zeros are equal, all else has one form. -/
def same (x y : Binary64) : Bool :=
  (x.isZero && y.isZero) || x == y

/-- The value as a ratio of integers with a positive denominator. -/
def ratio (x : Binary64) : Int × Nat :=
  let magnitude : Int := x.significand * Nat.pow 2 x.exponent.toNat
  (if x.negative then -magnitude else magnitude, Nat.pow 2 (-x.exponent).toNat)

/-- The quotient rounded to nearest, a tie to the even neighbour. -/
def roundQuotient (num den : Nat) : Nat :=
  let quotient := num / den
  let twice := 2 * (num % den)
  if twice < den then quotient
  else if den < twice then quotient + 1
  else quotient + quotient % 2

/-- The number with this significand and exponent, if the format has it. A
significand of one bit too many is the least of the next exponent. -/
def ofParts? (negative : Bool) (significand : Nat) (exponent : Int) : Option Binary64 :=
  let (significand, exponent) :=
    if significand = Nat.pow 2 53 then (Nat.pow 2 52, exponent + 1) else (significand, exponent)
  if h : significand < Nat.pow 2 53 ∧ -1074 ≤ exponent ∧ exponent ≤ 971 ∧
      (exponent = -1074 ∨ Nat.pow 2 52 ≤ significand) then
    some ⟨negative, significand, exponent, h⟩
  else none

/-- The positive ratio `num / den` divided by `2 ^ exponent`, as a ratio. -/
def scaled (num den : Nat) (exponent : Int) : Nat × Nat :=
  if 0 ≤ exponent then (num, den * Nat.pow 2 exponent.toNat)
  else (num * Nat.pow 2 (-exponent).toNat, den)

/-- The number nearest to `±num / den`; none when that is beyond the greatest
finite number. The exponent is the one that gives a significand of 53 bits,
or the least exponent of the format if that is greater. -/
def ofRatio? (negative : Bool) (num den : Nat) : Option Binary64 :=
  if num = 0 ∨ den = 0 then some (zero negative)
  else
    let coarse : Int := max (-1074) ((num.log2 : Int) - den.log2 - 53)
    let (top, bottom) := scaled num den coarse
    let exponent := if Nat.pow 2 53 ≤ top / bottom then coarse + 1 else coarse
    let (top, bottom) := scaled num den exponent
    ofParts? negative (roundQuotient top bottom) exponent

/-- The number nearest to `±digits · 10 ^ exponent`; none when that is beyond
the greatest finite number. Decimals far outside the range of the format are
settled by their size alone. -/
def ofDecimal? (negative : Bool) (digits : Nat) (exponent : Int) : Option Binary64 :=
  let size := exponent + (Nat.toDigits 10 digits).length
  if digits = 0 ∨ size < -340 then some (zero negative)
  else if 310 < size then none
  else if 0 ≤ exponent then ofRatio? negative (digits * Nat.pow 10 exponent.toNat) 1
  else ofRatio? negative digits (Nat.pow 10 (-exponent).toNat)

end Binary64

/-- The decimal `digits · 10 ^ exponent`. -/
structure Decimal where
  digits : Nat
  exponent : Int

structure PositionalRange where
  least : Int
  greatest : Int

namespace Decimal

/-- The same decimal without zeros at the end of its digits. -/
def trimZeros (d : Decimal) : Decimal :=
  go d.digits d.digits d.exponent
where
  go : Nat → Nat → Int → Decimal
  | 0, digits, exponent => ⟨digits, exponent⟩
  | fuel + 1, digits, exponent =>
    if digits ≠ 0 ∧ digits % 10 = 0 then go fuel (digits / 10) (exponent + 1)
    else ⟨digits, exponent⟩

/-- The text of a decimal. Inside the range, by the exponent of the first
digit, it is positional and always has a point; outside it is scientific, the
sign of the exponent always written. -/
def text (range : PositionalRange) (d : Decimal) : String :=
  let digits := Nat.toDigits 10 d.digits
  let first := d.exponent + digits.length - 1
  if range.least ≤ first ∧ first ≤ range.greatest then
    if first < 0 then
      String.ofList ('0' :: '.' :: List.replicate (-first - 1).toNat '0' ++ digits)
    else
      let whole := (first + 1).toNat
      let fraction := digits.drop whole
      String.ofList (digits.take whole ++ List.replicate (whole - digits.length) '0' ++
        '.' :: (if fraction = [] then ['0'] else fraction))
  else
    let fraction := digits.drop 1
    let mark := if first < 0 then "e-" else "e+"
    String.ofList (digits.take 1 ++ (if fraction = [] then [] else '.' :: fraction)) ++
      mark ++ Text.numeral first.natAbs

end Decimal

namespace Binary64

/-- The decimals that read back as a positive number, in quarters of its last
place: the number itself and the two ends of the interval. Below the least
significand of a binade the gap is half as wide. -/
def interval (x : Binary64) : Nat × Nat × Nat :=
  let middle := 4 * x.significand
  let below := if x.significand = Nat.pow 2 52 ∧ x.exponent ≠ -1074 then 1 else 2
  (middle - below, middle, middle + 2)

/-- Two factors that bring multiples of `10 ^ grid` and quarters of the last
place of `x` to a common unit. -/
def commonUnit (x : Binary64) (grid : Int) : Nat × Nat :=
  let quarter := x.exponent - 2
  let decimal := Nat.pow 10 grid.toNat * Nat.pow 2 (-quarter).toNat
  let binary := Nat.pow 10 (-grid).toNat * Nat.pow 2 quarter.toNat
  (decimal, binary)

/-- The nearest multiple of `10 ^ grid` that reads back as the positive number
`x`, if one of the two neighbours of `x` does. -/
def onGrid? (x : Binary64) (grid : Int) : Option Decimal :=
  let (low, middle, high) := x.interval
  let (decimal, binary) := x.commonUnit grid
  let closed := x.significand % 2 = 0
  let reads (c : Nat) : Bool :=
    if closed then low * binary ≤ c * decimal ∧ c * decimal ≤ high * binary
    else low * binary < c * decimal ∧ c * decimal < high * binary
  let lower := middle * binary / decimal
  let upper := lower + 1
  match reads lower, reads upper with
  | true, true =>
    let twice := 2 * (middle * binary)
    let between := (lower + upper) * decimal
    if twice < between ∨ (twice = between ∧ lower % 2 = 0) then some ⟨lower, grid⟩
    else some ⟨upper, grid⟩
  | true, false => some ⟨lower, grid⟩
  | false, true => some ⟨upper, grid⟩
  | false, false => none

/-- The exponent of the first decimal digit of a positive number: an estimate
from its binary exponent, corrected by one comparison on either side. -/
def decimalExponent (x : Binary64) : Int :=
  let estimate := (((x.significand.log2 : Int) + x.exponent) * 1233).fdiv 4096
  let below (power : Int) : Bool :=
    let (decimal, binary) := x.commonUnit power
    4 * x.significand * binary < decimal
  if below estimate then estimate - 1
  else if below (estimate + 1) then estimate
  else estimate + 1

/-- The shortest decimal that reads back as the absolute value of `x`; among
those of that length the nearest. Seventeen digits always suffice. -/
def shortest (x : Binary64) : Decimal :=
  if x.significand = 0 then ⟨0, 0⟩
  else
    let first := x.decimalExponent
    let found := (List.range 17).findSome? fun (n : Nat) => x.onGrid? (first - n)
    (found.getD ⟨0, 0⟩).trimZeros

/-- Numbers of data are positional from `1e-5` up to below `1e16`. -/
def positional : PositionalRange := ⟨-5, 15⟩

/-- The text of a finite number, a minus sign in front of a negative one, the
negative zero included. -/
def text (x : Binary64) : String :=
  (if x.negative then "-" else "") ++ x.shortest.text positional

end Binary64

inductive Number where
  | integer (value : Int) (bounds : -(Nat.pow 2 63 : Int) ≤ value ∧ value < Nat.pow 2 64)
  | float (value : Binary64)
  deriving DecidableEq

namespace Number

/-- The integer as a number, if it fits a word. -/
def ofInt? (value : Int) : Option Number :=
  if h : -(Nat.pow 2 63 : Int) ≤ value ∧ value < Nat.pow 2 64 then some (.integer value h) else none

/-- The number of a length or a position. Sizes of data are far below the
greatest word; a greater one would be written as that word. -/
def ofNat (n : Nat) : Number :=
  .integer (min n (Nat.pow 2 64 - 1) : Nat) <| by
    have hpositive : 0 < Nat.pow 2 64 := by decide
    omega

/-- Integers are equal by value, and so are floats, where the two zeros are
equal. An integer never equals a float. -/
def same : Number → Number → Bool
  | .integer a _, .integer b _ => a == b
  | .float a, .float b => a.same b
  | _, _ => false

def isZero : Number → Bool
  | .integer value _ => value == 0
  | .float value => value.isZero

/-- The value as a ratio of integers with a positive denominator. -/
def ratio : Number → Int × Nat
  | .integer value _ => (value, 1)
  | .float value => value.ratio

def order (a b : Number) : Ordering :=
  compare (a.ratio.1 * b.ratio.2) (b.ratio.1 * a.ratio.2)

/-- The value, if it is an integer not below zero. -/
def toNat? : Number → Option Nat
  | .integer (.ofNat n) _ => some n
  | _ => none

def text : Number → String
  | .integer value _ => Text.signedNumeral value
  | .float value => value.text

/-- The number of a decimal literal: an integer where the literal is one and
fits a word, else the nearest float, if there is a finite one. A literal `-0`
is the float zero, as no integer keeps its sign. -/
def ofLiteral? (negative : Bool) (digits : Nat) (exponent : Int) (isWhole : Bool) :
    Option Number :=
  let value : Int := if negative then -(digits : Int) else digits
  if isWhole ∧ exponent = 0 ∧ ¬ (negative ∧ digits = 0) then
    ofInt? value <|> (Binary64.ofDecimal? negative digits exponent).map .float
  else (Binary64.ofDecimal? negative digits exponent).map .float

end Number

end Stencil
