/-!
Reading a number from its decimal text: an optional sign, then either digits with an optional
point and an optional exponent, or one of the words `inf`, `infinity` and `nan` in any case. The
value is the nearest double, a tie going to the even one; too large a number is infinite and too
small a number is a zero of the same sign.
-/

namespace Bottleneck.Number

def infinity : Float := .ofBits 0x7FF0000000000000

def notANumber : Float := .ofBits 0x7FF8000000000000

/-- Whether the text starts with a minus, and the text after its sign. -/
def readSign : List Char → Bool × List Char
  | '-' :: cs => (true, cs)
  | '+' :: cs => (false, cs)
  | cs => (false, cs)

/-- The digits after a point, and the text after them. A point needs no digit after it. -/
def readFraction : List Char → List Char × List Char
  | '.' :: cs => (cs.takeWhile Char.isDigit, cs.dropWhile Char.isDigit)
  | cs => ([], cs)

/-- The power of ten that a numeral ends with. No exponent is the exponent zero, but a mark
without a digit after it is none. -/
def readExponent? : List Char → Option Int
  | [] => some 0
  | mark :: cs =>
    let (negative, digits) := readSign cs
    if (mark = 'e' ∨ mark = 'E') ∧ digits ≠ [] ∧ digits.all Char.isDigit then
      let magnitude : Int := Nat.ofDigitChars 10 digits 0
      some (if negative then -magnitude else magnitude)
    else none

/-- A numeral without its sign. A digit must stand on one side of the point. -/
def readNumeral? (cs : List Char) : Option Float :=
  let whole := cs.takeWhile Char.isDigit
  let (fraction, rest) := readFraction (cs.dropWhile Char.isDigit)
  if whole = [] ∧ fraction = [] then none
  else
    (readExponent? rest).map fun (exponent : Int) =>
      let scale := exponent - fraction.length
      .ofScientific (Nat.ofDigitChars 10 (whole ++ fraction) 0) (scale < 0) scale.natAbs

/-- A value that is spelled as a word. -/
def readWord? (cs : List Char) : Option Float :=
  let word := String.ofList (cs.map Char.toLower)
  if word = "inf" ∨ word = "infinity" then some infinity
  else if word = "nan" then some notANumber
  else none

/-- The whole text must be the number. -/
def read? (cs : List Char) : Option Float :=
  let (negative, magnitude) := readSign cs
  (readWord? magnitude <|> readNumeral? magnitude).map fun x => if negative then -x else x

end Bottleneck.Number
