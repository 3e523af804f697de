import MolecularTools.Host.Basic

/-! Hosts on which chosen calls fail. A call that is chosen to fail does nothing else. -/
namespace MolecularTools

/-- The calls that can be made to fail. -/
inductive Call where
  | currentDirectory | readText | makeDirectories | removeFile | removeTree | removeLink
  | createFile | openFile | canonical | makeLink | run
deriving DecidableEq, Repr

/-- For a call and how often it was made, this time included, the text it fails with. -/
abbrev Faults := Call → Nat → Option String

/-- How often each call was made. -/
abbrev CallCounts := Call → Nat

variable {σ α : Type}

/-- Counts a call and fails if it is chosen to. -/
def Faults.guard (faults : Faults) (c : Call) (t : Task (CallCounts × σ) α) :
    Task (CallCounts × σ) α := do
  .act fun s => (fun k => if k = c then s.1 k + 1 else s.1 k, s.2)
  match faults c (← .ask fun s => s.1 c) with
  | some text => .fail (.ofMessage text)
  | none => t

/-- The host with chosen failures. -/
def Host.failing (h : Host σ) (faults : Faults) : Host (CallCounts × σ) :=
  let h : Host (CallCounts × σ) := h.below
  { h with
    currentDirectory := faults.guard .currentDirectory h.currentDirectory
    canonical := fun p => faults.guard .canonical (h.canonical p)
    readText := fun p => faults.guard .readText (h.readText p)
    openFile := fun p => faults.guard .openFile (h.openFile p)
    createFile := fun p => faults.guard .createFile (h.createFile p)
    makeDirectories := fun p => faults.guard .makeDirectories (h.makeDirectories p)
    removeFile := fun p => faults.guard .removeFile (h.removeFile p)
    removeTree := fun p => faults.guard .removeTree (h.removeTree p)
    removeLink := fun p => faults.guard .removeLink (h.removeLink p)
    makeLink := fun target p => faults.guard .makeLink (h.makeLink target p)
    run := fun c => faults.guard .run (h.run c) }

end MolecularTools
