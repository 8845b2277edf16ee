import PointSymbol.Decimal.Shortest

/-!
# Written forms of numbers

A number is written with its shortest digits, either positionally or with an exponent. A `Form` says
which exponents of the leading digit are positional and whether integers end in `.0`.
-/

namespace PointSymbol.Decimal
-- the powers of core, whether or not a monoid of naturals is in scope
attribute [local instance (2000)] instPowNat

structure Form where
  pointZero : Bool
  positional : Int → Bool

def signChars (negative : Bool) : List Char :=
  if negative then ['-'] else []

/-- The digits of `n`, with zeros in front up to a width. -/
def paddedDigits (width n : Nat) : List Char :=
  let ds := Nat.toDigits 10 n
  List.replicate (width - ds.length) '0' ++ ds

def positionalChars (pointZero : Bool) (digits : Nat) : Int → List Char
  | .ofNat e => Nat.toDigits 10 (digits * 10 ^ e) ++ if pointZero then ['.', '0'] else []
  | .negSucc e =>
    Nat.toDigits 10 (digits / 10 ^ (e + 1)) ++ '.' :: paddedDigits (e + 1) (digits % 10 ^ (e + 1))

/-- The exponent of the leading digit; zero has the exponent zero. -/
def leadingExponent (d : Decimal) : Int :=
  if d.digits = 0 then 0 else d.exponent + (Nat.toDigits 10 d.digits).length - 1

def exponentChars (d : Decimal) : List Char :=
  let e := d.leadingExponent
  let mantissa :=
    match Nat.toDigits 10 d.digits with
    | c :: c' :: cs => c :: '.' :: c' :: cs
    | cs => cs
  mantissa ++ 'e' :: (signChars (e < 0) ++ Nat.toDigits 10 e.natAbs)

namespace Form
variable {f : Binary.Format}

def decimalChars (form : Form) (d : Decimal) : List Char :=
  signChars d.negative ++
    if form.positional d.leadingExponent then positionalChars form.pointZero d.digits d.exponent
    else exponentChars d

def chars (form : Form) (x : Binary f) : List Char :=
  if x.isNaN then ['N', 'a', 'N']
  else if x.isInfinite then signChars x.negative ++ ['i', 'n', 'f']
  else form.decimalChars (ofBinary x)

def text (form : Form) (x : Binary f) : String :=
  String.ofList (form.chars x)

end Form

end PointSymbol.Decimal
