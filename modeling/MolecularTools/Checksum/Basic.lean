import MolecularTools.Text.Blank
import MolecularTools.Text.Hex

/-! Checksums: a digest algorithm and the digest that is expected. In text the algorithm's
name stands before a colon; a bare digest tells its algorithm by its length. -/
namespace MolecularTools

inductive Algorithm where
  | md5 | sha256
deriving DecidableEq, Repr

namespace Algorithm

def name : Algorithm → String
  | md5 => "md5"
  | sha256 => "sha256"

/-- Hexadecimal digits of a digest. -/
def digits : Algorithm → Nat
  | md5 => 32
  | sha256 => 64

def all : List Algorithm := [md5, sha256]

def ofName? (name : List Char) : Option Algorithm := all.find? (·.name.toList = name)

def ofLength? (n : Nat) : Option Algorithm := all.find? (·.digits = n)

end Algorithm

/-- A digest that data should have, in lower-case hexadecimal. -/
structure Checksum where
  algorithm : Algorithm
  hex : String
deriving DecidableEq, Repr

inductive ChecksumError where
  | notHex (text : String)
  | length (algorithm text : String) (digits : Nat)
  | unsupported (algorithm : String)
  | unknownLength (text : String) (digits : Nat)
deriving DecidableEq, Repr

def ChecksumError.text : ChecksumError → String
  | .notHex s => "Invalid checksum '" ++ s ++ "': expected a hex digest"
  | .length a s n =>
    "Invalid " ++ a ++ " checksum '" ++ s ++ "': unexpected length " ++ toString n
  | .unsupported a => "Unsupported checksum algorithm '" ++ a ++ "'"
  | .unknownLength s n =>
    "Cannot infer checksum algorithm for '" ++ s ++ "' (length " ++ toString n ++ ")"

namespace Checksum

/-- What stands before the first colon, and what behind it or the whole text. -/
def splitTag : List Char → Option (List Char) × List Char
  | cs => match cs.span (· ≠ ':') with
    | (tag, _ :: rest) => (some tag, rest)
    | (_, []) => (none, cs)

/-- Reads a checksum; blanks around it and the case of letters do not count. -/
def parse (text : String) : Except ChecksumError Checksum :=
  let cs := Text.trim text.toList
  let shown := String.ofList cs
  let (tag, digest) := splitTag cs
  if digest.isEmpty || !digest.all Text.isHexDigit then .error (.notHex shown)
  else
    let hex := String.ofList (digest.map Char.toLower)
    match tag.map (·.map Char.toLower) with
    | some tag => match Algorithm.ofName? tag with
      | some a =>
        if digest.length = a.digits then .ok ⟨a, hex⟩
        else .error (.length (String.ofList tag) shown digest.length)
      | none => .error (.unsupported (String.ofList tag))
    | none => match Algorithm.ofLength? digest.length with
      | some a => .ok ⟨a, hex⟩
      | none => .error (.unknownLength shown digest.length)

/-- The algorithm's name, a colon and the digest. -/
def text (c : Checksum) : String := c.algorithm.name ++ ":" ++ c.hex

end Checksum

end MolecularTools
