import MolecularTools.Files.Tree
import MolecularTools.Files.Path

/-! Following paths through a file tree. A path is walked name by name; links on the way are
followed, and so is one at the end unless the entry itself is meant. -/
namespace MolecularTools

namespace FileTree

/-- What a path is walked for. -/
inductive Aim where
  /-- The last name itself, whatever stands there. -/
  | entry
  /-- What the path stands for. -/
  | target
  /-- A file to be made if there is none. -/
  | create
deriving DecidableEq, Repr

/-- Where a path leads. -/
inductive Place where
  | found (l : Location) (n : Node)
  /-- The directory exists and has no entry of this name. -/
  | vacant (directory : Location) (name : String)

/-- Where a walk ended, and how the path that led there ended. -/
structure Spot where
  place : Place
  /-- Behind a slash. -/
  slash : Bool
  /-- The last name if it was `.`, `..` or none at all. -/
  dots : Option String

/-- Longest name and longest path in bytes. -/
def nameBound : Nat := 255
def pathBound : Nat := 4095

/-- Most links followed in one walk. -/
def linkBound : Nat := 40

/-- Walks from the directory `l`, handing each link to `follow`. -/
def walkWith (follow : Location → List String → Bool → Except IoError Spot)
    (t : FileTree) (aim : Aim) (last : Option String) (l : Location) (slash : Bool) :
    List String → Except IoError Spot
  | [] => .ok ⟨.found l (.directory ((t.directoryMode? l).getD directoryMode)), slash, last⟩
  | name :: rest =>
    if !t.searchable l then .error .permission
    else if name = "." then walkWith follow t aim (some name) l slash rest
    else if name = ".." then walkWith follow t aim (some name) l.dropLast slash rest
    else if nameBound < name.utf8ByteSize then .error .nameTooLong
    else
      let here := l ++ [name]
      let final := rest.isEmpty
      if final && slash && aim = .create then .error .isDirectory
      else match t.node? here with
        | none => if final then .ok ⟨.vacant l name, slash, none⟩ else .error .noEntry
        | some (.directory m) =>
          if final then .ok ⟨.found here (.directory m), slash, none⟩
          else walkWith follow t aim none here slash rest
        | some (.link target) =>
          if final && aim = .entry then .ok ⟨.found here (.link target), slash, none⟩
          else
            let start := if Path.isAbsolute target then [] else l
            let slash := slash || (final && Path.endsInSlash target)
            follow start (Path.names target ++ rest) slash
        | some (.file f) =>
          if final then .ok ⟨.found here (.file f), slash, none⟩ else .error .notDirectory

/-- Walks with at most `n` links left to follow. -/
def walkWithin (t : FileTree) (aim : Aim) :
    Nat → Location → List String → Bool → Except IoError Spot
  | 0 => fun l names slash => walkWith (fun _ _ _ => .error .linkLoop) t aim none l slash names
  | n + 1 => fun l names slash => walkWith (walkWithin t aim n) t aim none l slash names

/-- Walks from the root. It is the current directory too, so a relative path starts there as well. -/
def walk (t : FileTree) (aim : Aim) (p : String) : Except IoError Spot :=
  if p = "" then .error .noEntry
  else if p.toList.any (·.toNat = 0) then .error .nulInName
  else if pathBound < p.utf8ByteSize then .error .nameTooLong
  else walkWithin t aim linkBound [] (Path.names p) (Path.endsInSlash p)

/-- What a path stands for. -/
def lookup (t : FileTree) (p : String) : Except IoError (Location × Node) := do
  let spot ← t.walk .target p
  match spot.place with
  | .vacant _ _ => .error .noEntry
  | .found l n => if spot.slash && !n.isDirectory then .error .notDirectory else .ok (l, n)

/-- What stands at the end of a path. A slash at the end asks for what it stands for. -/
def lookupEntry (t : FileTree) (p : String) : Except IoError (Location × Node) :=
  if Path.endsInSlash p then t.lookup p
  else do
    match (← t.walk .entry p).place with
    | .vacant _ _ => .error .noEntry
    | .found l n => .ok (l, n)

def pathExists (t : FileTree) (p : String) : Bool :=
  match t.lookup p with
  | .ok _ => true
  | .error _ => false

def isDirectory (t : FileTree) (p : String) : Bool :=
  match t.lookup p with
  | .ok (_, .directory _) => true
  | _ => false

def isFile (t : FileTree) (p : String) : Bool :=
  match t.lookup p with
  | .ok (_, .file _) => true
  | _ => false

def isLink (t : FileTree) (p : String) : Bool :=
  match t.lookupEntry p with
  | .ok (_, .link _) => true
  | _ => false

/-- The entries that are looked at on the way from the directory `l`, in order and up to the one
where the way ends; each link is handed to `follow`. -/
def visitedWith (follow : Location → List String → List Location) (t : FileTree) (l : Location) :
    List String → List Location
  | [] => []
  | name :: rest =>
    if name = "." then visitedWith follow t l rest
    else if name = ".." then visitedWith follow t l.dropLast rest
    else
      let here := l ++ [name]
      here :: if !t.searchable l then [] else match t.node? here with
        | some (.directory _) => visitedWith follow t here rest
        | some (.link target) =>
          follow (if Path.isAbsolute target then [] else l) (Path.names target ++ rest)
        | _ => []

/-- The entries on a way with at most `n` links left to follow. -/
def visitedWithin (t : FileTree) : Nat → Location → List String → List Location
  | 0 => visitedWith (fun _ _ => []) t
  | n + 1 => visitedWith (visitedWithin t n) t

/-- The entries that are looked at to find out what a path stands for. -/
def visited (t : FileTree) (p : String) : List Location :=
  visitedWithin t linkBound [] (Path.names p)

/-- The path without links, dots and repeated slashes. Each entry on the way is looked at by its
own path from the root, so none of these paths may be too long. -/
def canonical (t : FileTree) (p : String) : Except IoError String :=
  if p.toList.any (·.toNat = 0) then .error .nulInName
  else if (t.visited p).any fun l => pathBound < (Path.absolute l).utf8ByteSize then
    .error .nameTooLong
  else (t.lookup p).map fun r => Path.absolute r.1

end FileTree

end MolecularTools
