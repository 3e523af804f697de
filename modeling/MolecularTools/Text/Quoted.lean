import MolecularTools.Text.Printable
import MolecularTools.Text.Hex

/-! Quoted texts: a text between double quotes in which every character can be told
apart. Quotes and backslashes take a backslash, the usual controls their letter, and any
other character that does not print is written by its code point. -/
namespace MolecularTools.Text

/-- The hexadecimal digits of a number, without leading zeros. -/
def hexNumber (n : Nat) : List Char :=
  Nat.toDigits 16 n

/-- How one character is written between the quotes. -/
def quotedChar (c : Char) : List Char :=
  if c = '"' then ['\\', '"']
  else if c = '\\' then ['\\', '\\']
  else if c = '\n' then ['\\', 'n']
  else if c = '\r' then ['\\', 'r']
  else if c = '\t' then ['\\', 't']
  else if c = Char.ofNat 0 then ['\\', '0']
  else if isPrintable c then [c]
  else ['\\', 'u', '\x7b'] ++ hexNumber c.toNat ++ ['\x7d']

/-- The text between double quotes. -/
def quoted (s : String) : String :=
  String.ofList ('"' :: s.toList.flatMap quotedChar ++ ['"'])

end MolecularTools.Text
