import MolecularTools.Json.Basic

/-! JSON numbers. Integers that fit sixty-four bits stay exact. Any other number collects its
leading digits while they fit sixty-four bits, drops the rest, and scales that significand by
powers of ten in binary64, so its last bit can differ from the nearest value. -/
namespace MolecularTools.Json

def wordBound : Nat := Nat.pow 2 64

/-- Largest power of ten that is scaled by in one step. -/
def powerBound : Nat := 308

def power (n : Nat) : Float := Float.ofScientific 1 false n

/-- Steps down by the largest power until the rest can be divided by at once. Three steps
bring any significand to zero. -/
def divideDown : Nat → Float → Nat → Float
  | 0, f, _ => f
  | fuel + 1, f, n =>
    if n ≤ powerBound then f / power n
    else if f == 0.0 then f
    else divideDown fuel (f / power powerBound) (n - powerBound)

/-- The significand times a power of ten; none if that is beyond binary64. -/
def scale? (significand : Nat) (exponent : Int) : Option Float :=
  let f := Float.ofNat significand
  if exponent < 0 then some (divideDown 4 f exponent.natAbs)
  else if exponent.toNat ≤ powerBound then
    let g := f * power exponent.toNat
    if g.isInf then none else some g
  else if f == 0.0 then some f
  else none

/-- Takes up digits while the significand fits; returns it with the digits left over. -/
def takeDigits : Nat → List Char → Nat × List Char
  | n, [] => (n, [])
  | n, c :: cs =>
    let next := 10 * n + (c.toNat - 48)
    if next < wordBound then takeDigits next cs else (n, c :: cs)

def digitValue (ds : List Char) : Nat := ds.foldl (fun n c => 10 * n + (c.toNat - 48)) 0

/-- Exponents past this count as infinite. -/
def exponentBound : Nat := Nat.pow 2 31

/-- The fault of a text that ends, or else goes on, where a digit should stand. -/
def digitFault (rest : List Char) : JsonFault := if rest.isEmpty then .ended else .grammar

def signedFloat (negative : Bool) (x : Float) : JsonNumber :=
  .float (if negative then -x else x)

def scaledFloat (negative : Bool) (significand : Nat) (exponent : Int) :
    Except JsonFault JsonNumber :=
  match scale? significand exponent with
  | some x => .ok (signedFloat negative x)
  | none => .error .grammar

/-- What follows the mark of an exponent. -/
def readExponent (negative : Bool) (significand : Nat) (exponent : Int) (cs : List Char) :
    Except JsonFault (JsonNumber × List Char) :=
  let (down, cs) := match cs with
    | '-' :: r => (true, r)
    | '+' :: r => (false, r)
    | r => (false, r)
  let (ds, rest) := cs.span Char.isDigit
  if ds.isEmpty then .error (digitFault rest)
  else
    let e := digitValue ds
    if e < exponentBound then
      let e : Int := if down then exponent - e else exponent + e
      (scaledFloat negative significand e).map (·, rest)
    else if significand ≠ 0 && !down then .error .grammar
    else .ok (signedFloat negative 0.0, rest)

def readTail (negative : Bool) (significand : Nat) (exponent : Int) (cs : List Char) :
    Except JsonFault (JsonNumber × List Char) :=
  match cs with
  | 'e' :: r => readExponent negative significand exponent r
  | 'E' :: r => readExponent negative significand exponent r
  | _ => (scaledFloat negative significand exponent).map (·, cs)

/-- What follows the point. -/
def readFraction (negative : Bool) (significand : Nat) (exponent : Int) (cs : List Char) :
    Except JsonFault (JsonNumber × List Char) :=
  let (ds, rest) := cs.span Char.isDigit
  if ds.isEmpty then .error (digitFault rest)
  else
    let (n, dropped) := takeDigits significand ds
    readTail negative n (exponent - (ds.length - dropped.length : Nat)) rest

/-- An integer that fits its range, or else its value in binary64. A negative zero has no
integer. -/
def integer (negative : Bool) (n : Nat) : JsonNumber :=
  if !negative then .natural n
  else if n = 0 ∨ Nat.pow 2 63 < n then .float (-Float.ofNat n)
  else .negative n

/-- A number behind its sign. -/
def readNumber (negative : Bool) (cs : List Char) : Except JsonFault (JsonNumber × List Char) :=
  let (ds, rest) := cs.span Char.isDigit
  match ds with
  | [] => .error (digitFault rest)
  | '0' :: _ :: _ => .error .grammar
  | _ =>
    let (n, dropped) := takeDigits 0 ds
    match rest with
    | '.' :: r => readFraction negative n dropped.length r
    | 'e' :: r => readExponent negative n dropped.length r
    | 'E' :: r => readExponent negative n dropped.length r
    | _ =>
      if dropped.isEmpty then .ok (integer negative n, rest)
      else (scaledFloat negative n dropped.length).map (·, rest)

end MolecularTools.Json
