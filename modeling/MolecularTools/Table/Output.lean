import MolecularTools.Table.Layout
import MolecularTools.Writer

/-! Writing a table line by line. -/
namespace MolecularTools

/-- Writes the lines in order and stops at the first that cannot be written. -/
def Writer.writeLines {σ : Type} (out : Writer σ) : List (List Char) → Task σ Unit
  | [] => pure ()
  | l :: ls => do
    out.write (String.ofList (l ++ ['\n'])).toUTF8
    out.writeLines ls

/-- Writes the table and flushes. -/
def AngleTable.write {σ : Type} (t : AngleTable Float) (h : Heading) (out : Writer σ) :
    Task σ Unit := do
  out.writeLines (Layout.lines h t)
  out.flush.within "Failed to flush table output"

end MolecularTools
