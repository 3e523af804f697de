import MolecularTools.Decimal.General

/-! Shortest number text: the fewest digits that read back as the same binary64 value.
The values that round to it form an interval around it; for one digit, two digits and so on,
the two neighbours on that decimal grid are tested against the interval. -/
namespace MolecularTools.Decimal

/-- A decimal magnitude `digits · 10 ^ exponent`. -/
structure Grid where
  digits : Nat
  exponent : Int
deriving DecidableEq, Repr

/-- Compares `digits · 10 ^ exponent` with `quarters · 2 ^ (power - 2)`, both made whole. -/
def Grid.compare (g : Grid) (quarters : Nat) (power : Int) : Ordering :=
  Ord.compare (g.digits * Nat.pow 10 g.exponent.toNat * Nat.pow 2 (2 - power).toNat)
    (quarters * Nat.pow 2 (power - 2).toNat * Nat.pow 10 (-g.exponent).toNat)

/-- Below a power of two the next value is only half as far. -/
def lowerQuarters (d : Dyadic) : Nat :=
  if d.mantissa = Nat.pow 2 52 ∧ -1074 < d.exponent then 4 * d.mantissa - 1
  else 4 * d.mantissa - 2

/-- Whether the grid point rounds to `d`; the ends belong to it when its mantissa is even. -/
def Grid.roundsTo (g : Grid) (d : Dyadic) : Bool :=
  let low := g.compare (lowerQuarters d) d.exponent
  let high := g.compare (4 * d.mantissa + 2) d.exponent
  if d.mantissa % 2 = 0 then low != .lt && high != .gt else low == .gt && high == .lt

/-- The grid point of the wanted number of digits that reads back as `d`, the nearer of two. -/
def onGrid (d : Dyadic) (leading : Int) (count : Nat) : Option Grid :=
  let e := leading + 1 - count
  let below := d.num * Nat.pow 10 (-e).toNat / (d.den * Nat.pow 10 e.toNat)
  let nearest := scaled d (-e)
  let other := if nearest = below then below + 1 else below
  if Grid.roundsTo ⟨nearest, e⟩ d then some ⟨nearest, e⟩
  else if Grid.roundsTo ⟨other, e⟩ d then some ⟨other, e⟩
  else none

/-- Shortest decimal of a positive magnitude; seventeen digits always suffice. -/
def shortest (d : Dyadic) : Grid :=
  let leading := leadingExponent d
  match (List.range 17).findSome? fun n => onGrid d leading (n + 1) with
  | some g => g
  | none => ⟨scaled d (16 - leading), leading - 16⟩

/-- Part of the format that a reader could have chosen differently. -/
structure ShortestFormat where
  /-- Least and greatest exponent written positionally. -/
  least : Int := -5
  greatest : Int := 15
  exponentWidth : Nat := 2

/-- The digits without the zeros at their end, and how many there were. -/
def dropZeros (ds : List Char) : List Char := (ds.reverse.dropWhile (· == '0')).reverse

/-- A positive magnitude: positional text always shows a fraction, scientific text only one
that is not zero. -/
def shortestMagnitude (f : ShortestFormat) (d : Dyadic) : List Char :=
  let g := shortest d
  let all := Nat.toDigits 10 g.digits
  let ds := dropZeros all
  let e := g.exponent + all.length - 1
  if f.least ≤ e ∧ e ≤ f.greatest then
    if e < 0 then '0' :: '.' :: List.replicate (-e - 1).toNat '0' ++ ds
    else
      let n := e.toNat + 1
      if ds.length ≤ n then ds ++ List.replicate (n - ds.length) '0' ++ ['.', '0']
      else ds.take n ++ '.' :: ds.drop n
  else
    let mantissa := match ds with
      | [] => []
      | [c] => [c]
      | c :: cs => c :: '.' :: cs
    mantissa ++ exponentText { exponentWidth := f.exponentWidth } e

/-- Shortest text of a finite value. -/
def shortestText (x : Float) : String :=
  String.ofList <| match read x with
    | .nan => "NaN".toList
    | .infinite negative => sign negative ++ "inf".toList
    | .finite negative d =>
      sign negative ++ if d.mantissa = 0 then ['0', '.', '0'] else shortestMagnitude {} d

end MolecularTools.Decimal
