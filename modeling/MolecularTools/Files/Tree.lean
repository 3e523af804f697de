import MolecularTools.Failure
import Std.Data.ExtTreeMap

/-! File trees: directories, files and symbolic links by the names that lead to them from the
root. Permissions are those of one user who owns everything and has no special rights. There are
no devices, sockets or pipes. -/
namespace MolecularTools

/-- Names from the root down, each the name of an entry; never `.` or `..`. -/
abbrev Location := List String

structure File where
  /-- Permission bits. -/
  mode : Nat := 0o644
  bytes : ByteArray := .empty
  /-- Files with one number here are one file under several names. -/
  shared : Option Nat := none

instance : DecidableEq File := fun f g =>
  decidable_of_iff (f.mode = g.mode ∧ f.bytes.data = g.bytes.data ∧ f.shared = g.shared)
    (by cases f; cases g; simp [ByteArray.ext_iff])

inductive Node where
  | directory (mode : Nat)
  | file (f : File)
  | link (target : String)
deriving DecidableEq

namespace Node

def isDirectory : Node → Bool
  | directory _ => true
  | _ => false

end Node

/-- The owner's permissions. -/
def mayRead (mode : Nat) : Bool := mode.testBit 8
def mayWrite (mode : Nat) : Bool := mode.testBit 7
def maySearch (mode : Nat) : Bool := mode.testBit 6

/-- Whether anyone may execute. -/
def isExecutable (mode : Nat) : Bool := mode.testBit 6 || mode.testBit 3 || mode.testBit 0

def directoryMode : Nat := 0o755
def fileMode : Nat := 0o644
def executableMode : Nat := 0o755

/-- All entries below a root that is always there. -/
structure FileTree where
  nodes : Std.ExtTreeMap Location Node := ∅

namespace FileTree

def empty : FileTree := {}

/-- What stands at a location. -/
def node? (t : FileTree) (l : Location) : Option Node :=
  if l = [] then some (.directory directoryMode) else t.nodes[l]?

def put (t : FileTree) (l : Location) (n : Node) : FileTree := ⟨t.nodes.insert l n⟩

def erase (t : FileTree) (l : Location) : FileTree := ⟨t.nodes.erase l⟩

/-- Whether an entry of the directory `l` exists. -/
def hasEntries (t : FileTree) (l : Location) : Bool :=
  t.nodes.any fun k _ => k ≠ [] && k.dropLast = l

/-- Locations of the entries of the directory `l`. -/
def entries (t : FileTree) (l : Location) : List Location :=
  t.nodes.keys.filter fun k => k ≠ [] && k.dropLast = l

/-- The permission bits of a directory; of anything else, none. -/
def directoryMode? (t : FileTree) (l : Location) : Option Nat :=
  match t.node? l with
  | some (.directory m) => some m
  | _ => none

/-- Whether names can be looked up in a directory. -/
def searchable (t : FileTree) (l : Location) : Bool := (t.directoryMode? l).any maySearch

/-- Whether entries can be made in a directory and taken from it. -/
def alterable (t : FileTree) (l : Location) : Bool :=
  (t.directoryMode? l).any fun m => mayWrite m && maySearch m

/-- Changes the file at `l` under all its names. -/
def changeFile (t : FileTree) (l : Location) (f : File → File) : FileTree :=
  match t.node? l with
  | some (.file old) => match old.shared with
    | none => t.put l (.file (f old))
    | some s => ⟨t.nodes.map fun _ n => match n with
      | .file g => if g.shared = some s then .file (f g) else n
      | _ => n⟩
  | _ => t

/-- Puts bytes behind those of the file at `l`. -/
def append (t : FileTree) (l : Location) (bytes : ByteArray) : FileTree :=
  t.changeFile l fun f => { f with bytes := f.bytes ++ bytes }

/-- A number that no file carries. -/
def freshShare (t : FileTree) : Nat :=
  t.nodes.foldl (fun n _ node => match node with
    | .file f => max n (f.shared.elim 0 (· + 1))
    | _ => n) 0

/-- Gives the file at `l` the further name `new`. -/
def shareFile (t : FileTree) (l new : Location) : FileTree :=
  match t.node? l with
  | some (.file f) =>
    let f := { f with shared := some (f.shared.getD t.freshShare) }
    (t.put l (.file f)).put new (.file f)
  | _ => t

end FileTree

end MolecularTools
