import OpCalculus.Decimal.Shortest

/-!
# The text of a number

A number is written with the fewest digits that read back. Numbers from `1e-4` up to but not
including `1e16` are written positionally with at least one digit after the point, all others with
an exponent. Zero keeps its sign.
-/

namespace OpCalculus.Decimal

/-- What the bits of a number stand for. -/
inductive Reading where
  | nan
  | infinite (negative : Bool)
  | zero (negative : Bool)
  | finite (negative : Bool) (magnitude : Binary)
  deriving DecidableEq, Repr

/-- Reads sign, exponent and fraction of a double-precision number. -/
def Reading.ofBits (bits : Nat) : Reading :=
  let negative : Bool := (bits >>> 63) % 2 = 1
  let exponent : Nat := (bits >>> 52) % 2048
  let fraction : Nat := bits % 0x10000000000000
  if exponent = 2047 then if fraction = 0 then infinite negative else nan
  else if exponent = 0 then
    if fraction = 0 then zero negative else finite negative ⟨fraction, -1074, false⟩
  else finite negative ⟨fraction + 0x10000000000000, exponent - 1075, fraction = 0 && 1 < exponent⟩

/-- Digits with a point after the first `point` of them, filled up with zeros. -/
def positional (digits : List Char) (point : Int) : List Char :=
  let whole := digits.take point.toNat ++ List.replicate (point.toNat - digits.length) '0'
  let fraction := List.replicate (-point).toNat '0' ++ digits.drop point.toNat
  (if whole = [] then ['0'] else whole) ++ '.' :: (if fraction = [] then ['0'] else fraction)

/-- One digit before the point, and the power of ten. -/
def exponential (digits : List Char) (exponent : Int) : List Char :=
  let mantissa := match digits with
    | first :: rest => if rest = [] then [first] else first :: '.' :: rest
    | [] => []
  mantissa ++ 'e' :: (toString exponent).toList

/-- The text of a positive decimal. -/
def magnitudeText (d : Numeral) : String :=
  let all := Nat.toDigits 10 d.digits
  let digits := (all.reverse.dropWhile (· = '0')).reverse
  let exponent : Int := d.exponent + all.length - 1
  String.ofList <|
    if -4 ≤ exponent && exponent < 16 then positional digits (exponent + 1)
    else exponential digits exponent

/-- The sign is written only when negative. -/
def signText (negative : Bool) : String := if negative then "-" else ""

def Reading.text : Reading → String
  | nan => "NaN"
  | infinite negative => signText negative ++ "inf"
  | zero negative => signText negative ++ "0.0"
  | finite negative magnitude => signText negative ++ magnitudeText magnitude.shortest

/-- The text of a number. -/
def numberText (x : Float) : String := (Reading.ofBits x.toBits.toNat).text

end OpCalculus.Decimal
