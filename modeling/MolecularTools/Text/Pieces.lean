/-! Cutting a text at a character. -/
namespace MolecularTools.Text

/-- The texts between the places of a character, empty ones included. -/
def pieces (mark : Char) : List Char → List (List Char)
  | [] => [[]]
  | c :: cs =>
    if c = mark then [] :: pieces mark cs
    else match pieces mark cs with
      | s :: ss => (c :: s) :: ss
      | [] => [[c]]

end MolecularTools.Text
