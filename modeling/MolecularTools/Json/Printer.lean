import MolecularTools.Text.Hex

/-! Compact JSON text. Quotes, backslashes and controls are escaped, everything else stands
for itself, and no blanks are written. -/
namespace MolecularTools.Json

/-- How one character is written in a string. -/
def escape (c : Char) : List Char :=
  if c = '"' then ['\\', '"']
  else if c = '\\' then ['\\', '\\']
  else if c = '\x08' then ['\\', 'b']
  else if c = '\x0c' then ['\\', 'f']
  else if c = '\n' then ['\\', 'n']
  else if c = '\r' then ['\\', 'r']
  else if c = '\t' then ['\\', 't']
  else if c.toNat < 0x20 then
    ['\\', 'u', '0', '0', Text.hexDigit (c.toNat / 16), Text.hexDigit (c.toNat % 16)]
  else [c]

def printString (s : String) : List Char := '"' :: s.toList.flatMap escape ++ ['"']

def printNat (n : Nat) : List Char := Nat.toDigits 10 n

/-- Texts with a comma between each two. -/
def separated : List (List Char) → List Char
  | [] => []
  | [x] => x
  | x :: xs => x ++ ',' :: separated xs

def printArray (items : List (List Char)) : List Char := '[' :: separated items ++ [']']

def printObject (members : List (String × List Char)) : List Char :=
  '\x7b' :: separated (members.map fun m => printString m.1 ++ ':' :: m.2) ++ ['\x7d']

end MolecularTools.Json
