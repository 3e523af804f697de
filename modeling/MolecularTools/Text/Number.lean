/-! Numbers in texts: digits to a base that fit a word of sixty-four bits. -/
namespace MolecularTools.Text

def wordBound : Nat := Nat.pow 2 64

/-- The number that `n` becomes with one more digit. -/
def withDigit? (base n : Nat) (c : Char) : Option Nat :=
  let d := c.toNat - 48
  if c.isDigit && d < base && base * n + d < wordBound then some (base * n + d) else none

def digits? (base : Nat) (cs : List Char) : Option Nat := cs.foldlM (withDigit? base) 0

/-- One or more digits, which a plus sign may precede. -/
def number? (base : Nat) (cs : List Char) : Option Nat :=
  let ds := match cs with
    | '+' :: ds => ds
    | ds => ds
  if ds.isEmpty then none else digits? base ds

end MolecularTools.Text
