import MolecularTools.Decimal.Round

/-! General number text: a value written to a number of leading digits, in positional
style while the exponent is near zero and in scientific style beyond, without padding
zeros. Each style rounds the exact value on its own. -/
namespace MolecularTools.Decimal

/-- Part of the format that a reader could have chosen differently. -/
structure GeneralFormat where
  /-- Least exponent written positionally. -/
  least : Int := -4
  /-- Digits an exponent is padded to. -/
  exponentWidth : Nat := 2
  nan : String := "nan"
  infinity : String := "inf"

/-- The format of table columns and headers. -/
def GeneralFormat.table : GeneralFormat := {}

/-- Drops the zeros at the end of a fraction, and the point when nothing follows it. -/
def trimFraction (cs : List Char) : List Char :=
  if cs.contains '.' then
    ((cs.reverse.dropWhile (· == '0')).dropWhile (· == '.')).reverse
  else cs

/-- The decimal digits of `n`, padded with zeros in front to `width` digits. -/
def paddedDigits (width n : Nat) : List Char :=
  let ds := Nat.toDigits 10 n
  List.replicate (width - ds.length) '0' ++ ds

/-- The magnitude rounded to `places` digits after the point. -/
def fixedText (d : Dyadic) (places : Nat) : List Char :=
  let ds := paddedDigits (places + 1) (scaled d places)
  let whole := ds.take (ds.length - places)
  let fraction := ds.drop (ds.length - places)
  if fraction.isEmpty then whole else whole ++ '.' :: fraction

/-- One digit, a point, and the rest of the digits. -/
def mantissaText (s : Significant) : List Char :=
  match Nat.toDigits 10 s.digits with
  | [] => []
  | [c] => [c]
  | c :: cs => c :: '.' :: cs

def exponentText (f : GeneralFormat) (e : Int) : List Char :=
  'e' :: (if e < 0 then '-' else '+') :: paddedDigits f.exponentWidth e.natAbs

/-- A positive magnitude to `precision` leading digits; the exponent after rounding picks
the style. -/
def magnitudeText (f : GeneralFormat) (d : Dyadic) (precision : Nat) : List Char :=
  let s := significant d precision
  if s.exponent < f.least ∨ (precision : Int) ≤ s.exponent then
    trimFraction (mantissaText s) ++ exponentText f s.exponent
  else
    trimFraction (fixedText d (precision - 1 - s.exponent).toNat)

def sign (negative : Bool) : List Char := if negative then ['-'] else []

/-- General text of what a bit pattern stands for. A zero keeps its sign. -/
def readingText (f : GeneralFormat) (precision : Nat) : Reading → List Char
  | .nan => f.nan.toList
  | .infinite negative => sign negative ++ f.infinity.toList
  | .finite negative d =>
    sign negative ++
      if d.mantissa = 0 then ['0'] else magnitudeText f d (max precision 1)

/-- The text of `x` to `precision` leading digits; no digit at all counts as one. -/
def general (x : Float) (precision : Nat) : String :=
  String.ofList (readingText .table precision (read x))

end MolecularTools.Decimal
