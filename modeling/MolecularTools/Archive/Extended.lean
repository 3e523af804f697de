import MolecularTools.Archive.Header

/-! Extended headers: lines of a length, a key and a value, which count for the next member in
place of what its own header says. -/
namespace MolecularTools.Archive.Extended

/-- The lines of some bytes up to the first empty one. -/
def lines (bytes : List UInt8) : List (List UInt8) :=
  let newline : UInt8 := 10
  (bytes.splitOnP (· == newline)).takeWhile fun l => !l.isEmpty

/-- Key and value of a line whose length is the one it states. -/
def entry? (line : List UInt8) : Option (List UInt8 × List UInt8) :=
  let blank : UInt8 := 32
  let equals : UInt8 := 61
  match line.span (· ≠ blank) with
  | (digits, _ :: rest) => do
    let s ← String.fromUTF8? ⟨digits.toArray⟩
    let n ← Text.number? 10 s.toList
    if n ≠ line.length + 1 then none
    match rest.span (· ≠ equals) with
    | (key, _ :: value) => some (key, value)
    | (_, []) => none
  | (_, []) => none

/-- The first value of a key; lines that cannot be read are passed over. -/
def text? (bytes : ByteArray) (key : String) : Option ByteArray :=
  (lines bytes.toList).findSome? fun l => match entry? l with
    | some (k, v) => if k = key.toUTF8.toList then some ⟨v.toArray⟩ else none
    | none => none

/-- The first value of a key, if it is a number and all lines before it can be read. -/
def firstNumber? (key : String) : List (List UInt8) → Option Nat
  | [] => none
  | l :: ls => match entry? l with
    | none => none
    | some (k, v) =>
      if k = key.toUTF8.toList then do
        let s ← String.fromUTF8? ⟨v.toArray⟩
        Text.number? 10 s.toList
      else firstNumber? key ls

def number? (bytes : ByteArray) (key : String) : Option Nat := firstNumber? key (lines bytes.toList)

end MolecularTools.Archive.Extended
