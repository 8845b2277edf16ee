import PointSymbol.Decimal.Basic

/-!
# Reading decimals

A written decimal has an optional sign, digits with an optional point among or around them, and an
optional exponent, which is a letter `e`, an optional sign and digits. Digits are those of ASCII.
-/

namespace PointSymbol.Decimal

/-- Whether a minus stands in front, and what follows the sign. -/
def readSign : List Char → Bool × List Char
  | '-' :: cs => (true, cs)
  | '+' :: cs => (false, cs)
  | cs => (false, cs)

/-- The digits in front, and what follows them. -/
def readDigits (cs : List Char) : List Char × List Char :=
  (cs.takeWhile Char.isDigit, cs.dropWhile Char.isDigit)

/-- The digits after a point, and what follows them; no digits where no point stands. -/
def readFraction : List Char → List Char × List Char
  | '.' :: cs => readDigits cs
  | cs => ([], cs)

def ofDigits (cs : List Char) : Nat :=
  Nat.ofDigitChars 10 cs 0

/-- The exponent that makes up the whole text; an empty text is the exponent zero. -/
def readExponent? : List Char → Option Int
  | [] => some 0
  | c :: cs =>
    let (negative, ds) := readSign cs
    if c.toLower = 'e' ∧ ds ≠ [] ∧ ds.all Char.isDigit then
      some (if negative then -(ofDigits ds : Int) else ofDigits ds)
    else none

def read? (cs : List Char) : Option Decimal :=
  let (negative, cs) := readSign cs
  let (whole, cs) := readDigits cs
  let (fraction, cs) := readFraction cs
  if whole ++ fraction = [] then none
  else (readExponent? cs).map fun e => ⟨negative, ofDigits (whole ++ fraction), e - fraction.length⟩

end PointSymbol.Decimal
