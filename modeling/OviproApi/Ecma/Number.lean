import Mathlib.Algebra.Group.Int.Defs
import Mathlib.Algebra.Group.Nat.Defs

/-! ECMAScript numbers. A finite number is kept as the decimal that
`Number::toString` prints for it, so that `-0` is `0`; `toDouble` and
`shortest` are the rounding of a decimal text to the nearest double and back. -/

namespace Ecma

inductive Number
  | decimal (digits exponent : Int)
  | infinite (negative : Bool)
  deriving DecidableEq, Repr

namespace Number

def zero : Number := .decimal 0 0

def normalize : Nat → Int → Int → Number
  | 0, digits, exponent => .decimal digits exponent
  | fuel + 1, digits, exponent =>
    if digits = 0 then zero
    else if digits % 10 = 0 then normalize fuel (digits / 10) (exponent + 1)
    else .decimal digits exponent

def scaled (numerator denominator : Nat) (exponent : Int) : Nat × Nat × Nat :=
  let numerator := numerator * 2 ^ (-exponent).toNat
  let denominator := denominator * 2 ^ exponent.toNat
  (numerator / denominator, numerator % denominator, denominator)

/-- The double nearest to a positive quotient, ties to even, as mantissa and
exponent; `none` when it overflows. -/
def toDouble (numerator denominator : Nat) : Option (Nat × Int) :=
  let guess : Int := (numerator.log2 : Int) - denominator.log2 - 53
  let exponent := max (-1074)
    (if (scaled numerator denominator guess).1 < 2 ^ 53 then guess else guess + 1)
  let (quotient, remainder, denominator) := scaled numerator denominator exponent
  let mantissa :=
    if 2 * remainder < denominator ∨ (2 * remainder = denominator ∧ quotient % 2 = 0) then quotient
    else quotient + 1
  let (mantissa, exponent) := if mantissa = 2 ^ 53 then (2 ^ 52, exponent + 1) else (mantissa, exponent)
  if exponent ≤ 971 then some (mantissa, exponent) else none

def decimalDigits (n : Nat) : Nat := (Nat.toDigits 10 n).length

-- The `n` with `10 ^ (n - 1) ≤ numerator / denominator < 10 ^ n`.
def magnitude (numerator denominator : Nat) : Int :=
  if denominator ≤ numerator then decimalDigits (numerator / denominator)
  else 1 - decimalDigits ((denominator - 1) / numerator)

-- The two decimals with `precision` digits next to the quotient, the nearer one first,
-- and of two that are equally near the one with the even last digit.
def candidates (numerator denominator precision : Nat) : List (Int × Int) :=
  let exponent := magnitude numerator denominator - precision
  let numerator := numerator * 10 ^ (-exponent).toNat
  let denominator := denominator * 10 ^ exponent.toNat
  let below : Int := (numerator / denominator : Nat)
  let twice := 2 * (numerator % denominator)
  if twice < denominator ∨ (twice = denominator ∧ below % 2 = 0) then
    [(below, exponent), (below + 1, exponent)]
  else [(below + 1, exponent), (below, exponent)]

def decimalToDouble (digits : Nat) (exponent : Int) : Option (Nat × Int) :=
  toDouble (digits * 10 ^ exponent.toNat) (10 ^ (-exponent).toNat)

/-- The shortest decimal that rounds to the double `mantissa * 2 ^ exponent`. -/
def shortest (mantissa : Nat) (exponent : Int) : Int × Int :=
  let numerator := mantissa * 2 ^ exponent.toNat
  let denominator := 2 ^ (-exponent).toNat
  let found := (List.range 17).findSome? fun i =>
    (candidates numerator denominator (i + 1)).find? fun c =>
      decimalToDouble c.1.toNat c.2 = some (mantissa, exponent)
  found.getD (mantissa * 2 ^ exponent.toNat * 5 ^ (-exponent).toNat, min exponent 0)

def ofDecimal (negative : Bool) (digits : Nat) (exponent : Int) : Number :=
  if digits = 0 then zero
  else
    match decimalToDouble digits exponent with
    | none => .infinite negative
    | some (0, _) => zero
    | some (mantissa, binary) =>
      let (digits, exponent) := shortest mantissa binary
      normalize 400 (if negative then -digits else digits) exponent

def ofInt (n : Int) : Number := ofDecimal (n < 0) n.natAbs 0

def digitsText (n : Nat) : List Char := Nat.toDigits 10 n

/-- `Number::toString` of a positive decimal: `digits` is not divisible by ten. -/
def positiveText (digits : Nat) (exponent : Int) : List Char :=
  let text := digitsText digits
  let k := text.length
  let n := k + exponent
  if k ≤ n ∧ n ≤ 21 then text ++ List.replicate exponent.toNat '0'
  else if 0 < n ∧ n ≤ 21 then text.take n.toNat ++ '.' :: text.drop n.toNat
  else if -6 < n ∧ n ≤ 0 then '0' :: '.' :: List.replicate (-n).toNat '0' ++ text
  else
    let mantissa := match text with
      | [] => []
      | [d] => [d]
      | d :: ds => d :: '.' :: ds
    mantissa ++ 'e' :: (if 0 < n then '+' else '-') :: digitsText (n - 1).natAbs

def text : Number → List Char
  | .decimal digits exponent =>
    if digits = 0 then ['0']
    else if digits < 0 then '-' :: positiveText digits.natAbs exponent
    else positiveText digits.natAbs exponent
  | .infinite negative => (if negative then "-Infinity" else "Infinity").toList

def isZero (x : Number) : Bool := x == zero

end Number
end Ecma
