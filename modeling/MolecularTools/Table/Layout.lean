import MolecularTools.Table.Sampling
import MolecularTools.Decimal.General

/-! Written form of an angle table: two comment lines, the label, the number of samples with
the equilibrium angle, and one line a sample in columns of fixed width. -/
namespace MolecularTools

/-- A day of the calendar. -/
structure Date where
  year : Int
  month : Nat
  day : Nat
deriving DecidableEq, Repr

/-- Year, month and day joined by dashes. Years past 9999 take a plus sign. -/
def Date.text (d : Date) : List Char :=
  let year := Decimal.paddedDigits 4 d.year.natAbs
  let sign := if d.year < 0 then ['-'] else if 9999 < d.year then ['+'] else []
  sign ++ year ++ '-' :: Decimal.paddedDigits 2 d.month ++ '-' :: Decimal.paddedDigits 2 d.day

/-- What a table is headed with. -/
structure Heading where
  date : List Char
  comment : String

def Heading.standardComment : String := "angle table generated by tabulate-angle"

namespace Layout

def contributor : String := "tabulate-angle"

/-- Columns of a number, and the leading digits written in it. -/
def columnWidth : Nat := 22
def columnDigits : Nat := 15
def indexWidth : Nat := 8
def equilibriumDigits : Nat := 6

def padRight (width : Nat) (cs : List Char) : List Char :=
  cs ++ List.replicate (width - cs.length) ' '

def padLeft (width : Nat) (cs : List Char) : List Char :=
  List.replicate (width - cs.length) ' ' ++ cs

/-- A number flush left, with a blank where a minus sign would stand. -/
def column (x : Float) : List Char :=
  let g := (Decimal.general x columnDigits).toList
  padRight columnWidth (if g.head? = some '-' then g else ' ' :: g)

/-- The line of one sample, without its end. -/
def row (index : Nat) (angle energy force : Float) : List Char :=
  padLeft indexWidth (Nat.toDigits 10 index) ++ ' ' :: column angle ++ ' ' :: column energy ++
    ' ' :: column force

def header (h : Heading) (units : Units) : List (List Char) :=
  ["# DATE: ".toList ++ h.date ++ " UNITS: ".toList ++ units.name.toList ++
      " CONTRIBUTOR: ".toList ++ contributor.toList,
    "# ".toList ++ h.comment.toList,
    []]

def body (t : AngleTable Float) : List (List Char) :=
  [t.label.toList,
    "N ".toList ++ Nat.toDigits 10 t.samples.length ++ " EQ ".toList ++
      (Decimal.general t.equilibrium equilibriumDigits).toList,
    []] ++
  t.samples.map fun p => row p.index p.angle p.energy p.force

def lines (h : Heading) (t : AngleTable Float) : List (List Char) :=
  header h t.units ++ body t

/-- The lines of a text, each with its end. -/
def unlines (ls : List (List Char)) : List Char := ls.flatMap fun l => l ++ ['\n']

def text (h : Heading) (t : AngleTable Float) : String := String.ofList (unlines (lines h t))

end Layout

end MolecularTools
