/-!
Writing a number with one decimal place. The exact value of the double is rounded to tenths, a tie
going to the even tenth. There is never an exponent, and the sign is written whenever the sign bit
is set, so a negative number that rounds to zero is `-0.0`.
-/

namespace Bottleneck.Number

/-- The quotient to the nearest integer, of two nearest ones the even. -/
def roundDiv (numerator denominator : Nat) : Nat :=
  let quotient := numerator / denominator
  let twice := 2 * (numerator % denominator)
  if twice < denominator ∨ (twice = denominator ∧ quotient % 2 = 0) then quotient
  else quotient + 1

/-- The number of fractions that a double can have at one exponent, two to the power of 52. -/
def fractions : Nat := 0x10000000000000

/-- Ten times the magnitude of a finite double, rounded. With the biased exponent `e` and the
significand `m` the magnitude is `m * 2 ^ (e - 1075)`; of the two shifts below one is by nothing. -/
def tenths (x : Float) : Nat :=
  let bits := x.toBits.toNat
  let biased := bits / fractions % 0x800
  let significand := if biased = 0 then bits % fractions else fractions + bits % fractions
  let e := max biased 1
  roundDiv ((10 * significand) <<< (e - 1075)) (1 <<< (1075 - e))

/-- The sign bit is the first of a double. -/
def isNegative (x : Float) : Bool := 0x8000000000000000 ≤ x.toBits

/-- The text of a number with one decimal place. -/
def oneDecimal (x : Float) : String :=
  if x.isNaN then "NaN"
  else
    let magnitude :=
      if x.isInf then "inf" else toString (tenths x / 10) ++ "." ++ toString (tenths x % 10)
    if isNegative x then "-" ++ magnitude else magnitude

end Bottleneck.Number
