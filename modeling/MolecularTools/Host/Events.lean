import MolecularTools.Host.Basic

/-! Hosts that note what changes a machine: each such call is noted when it is made, whether it
succeeds or not. -/
namespace MolecularTools

inductive Event where
  | makeDirectories (p : String)
  | createFile (p : String)
  | removeFile (p : String)
  | removeTree (p : String)
  | removeLink (p : String)
  | makeLink (target p : String)
  | run (c : Command)
  | download (url : String)
deriving DecidableEq, Repr

variable {σ : Type}

def note (e : Event) : Task (List Event × σ) Unit := .act fun s => (s.1 ++ [e], s.2)

/-- The host with its changing calls noted in order. -/
def Host.noted (h : Host σ) : Host (List Event × σ) :=
  { h.below with
    createFile := fun p => do note (.createFile p); h.below.createFile p
    makeDirectories := fun p => do note (.makeDirectories p); h.below.makeDirectories p
    removeFile := fun p => do note (.removeFile p); h.below.removeFile p
    removeTree := fun p => do note (.removeTree p); h.below.removeTree p
    removeLink := fun p => do note (.removeLink p); h.below.removeLink p
    makeLink := fun target p => do note (.makeLink target p); h.below.makeLink target p
    run := fun c => do note (.run c); h.below.run c }

/-- The downloader with its calls noted. -/
def Downloader.noted (d : Downloader (List Event × σ)) : Downloader (List Event × σ) :=
  fun url out => do note (.download url); d url out

end MolecularTools
