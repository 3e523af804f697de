/-! Binary64 values from decimal texts. A text is a sign, digits with at most one point among
them, and an exponent; or it names infinity or no number. The nearest value counts. -/
namespace MolecularTools.Decimal

/-- Where magnitudes are beyond the largest and the smallest value, as powers of ten. -/
def largestPower : Int := 310
def smallestPower : Int := -330

/-- The value nearest to `m * 10 ^ e`, where `m` has at most `digits` digits. -/
def nearest (m digits : Nat) (e : Int) : Float :=
  if m = 0 || digits + e < smallestPower then 0.0
  else if largestPower < e then 1.0 / 0.0
  else if e < 0 then Float.ofScientific m true e.natAbs
  else Float.ofScientific m false e.natAbs

def digitsValue (cs : List Char) : Nat := cs.foldl (fun n c => 10 * n + (c.toNat - 48)) 0

/-- An exponent: a sign and at least one digit. -/
def exponent? (cs : List Char) : Option Int :=
  let (down, ds) := match cs with
    | '-' :: ds => (true, ds)
    | '+' :: ds => (false, ds)
    | ds => (false, ds)
  if ds.isEmpty || !ds.all Char.isDigit then none
  else
    let n : Int := digitsValue ds
    some (if down then -n else n)

/-- A number without sign. -/
def magnitude? (cs : List Char) : Option Float := do
  let (whole, rest) := cs.span Char.isDigit
  let (part, rest) := match rest with
    | '.' :: rest => rest.span Char.isDigit
    | rest => ([], rest)
  if whole.isEmpty && part.isEmpty then none
  else
    let e ← match rest with
      | [] => some 0
      | c :: rest => if c = 'e' || c = 'E' then exponent? rest else none
    let digits := whole ++ part
    return nearest (digitsValue digits) digits.length (e - part.length)

/-- A word for a value that is no finite number; the case of letters does not count. -/
def named? (cs : List Char) : Option Float :=
  let word := String.ofList (cs.map Char.toLower)
  if word = "inf" || word = "infinity" then some (1.0 / 0.0)
  else if word = "nan" then some (0.0 / 0.0)
  else none

def unsigned? (cs : List Char) : Option Float := (named? cs).or (magnitude? cs)

def parse? (text : String) : Option Float :=
  match text.toList with
  | '-' :: cs => (unsigned? cs).map fun x => -x
  | '+' :: cs => unsigned? cs
  | cs => unsigned? cs

end MolecularTools.Decimal
