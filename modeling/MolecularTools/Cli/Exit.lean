import MolecularTools.Cli.Arguments
import MolecularTools.Failure

/-! How a program ends: its exit code, and what it writes about a failure. -/
namespace MolecularTools.Cli

structure Exit where
  code : Nat
  errors : String
deriving DecidableEq, Repr

/-- A text whose further lines are moved in. -/
def indented (blanks : Nat) (text : String) : String :=
  String.ofList (text.toList.flatMap fun c =>
    if c = '\n' then '\n' :: List.replicate blanks ' ' else [c])

/-- Causes one below the other, numbered if there are several. -/
def causes : List String → String
  | [] => ""
  | [text] => "\n\nCaused by:\n    " ++ indented 4 text
  | texts =>
    let lines := texts.zipIdx.map fun (text, i) =>
      let number := toString i
      "\n" ++ String.ofList (List.replicate (5 - number.length) ' ') ++ number ++ ": " ++
        indented 7 text
    "\n\nCaused by:" ++ String.join lines

def report (f : Failure) : String :=
  match f.texts with
  | [] => ""
  | text :: rest => "Error: " ++ text ++ causes rest ++ "\n"

namespace Exit

def ofOutcome {α : Type} : Except Failure α → Exit
  | .ok _ => ⟨0, ""⟩
  | .error f => ⟨1, report f⟩

def usage : Exit := ⟨2, "error: invalid arguments\n"⟩

end Exit

end MolecularTools.Cli
