import MolecularTools.Files.Walk
import MolecularTools.Stream

/-! Operations on file trees. One that fails halfway keeps what it did, so those that work in
several steps return a tree in any case. -/
namespace MolecularTools.FileTree

/-- Makes a directory with the given permissions. -/
def makeDirectory (t : FileTree) (p : String) : Except IoError FileTree := do
  match (← t.walk .entry p).place with
  | .found _ _ => .error .alreadyExists
  | .vacant l name =>
    if t.alterable l then .ok (t.put (l ++ [name]) (.directory directoryMode))
    else .error .permission

/-- Makes the first directory of the list. Where an upper one is missing, those behind it in
the list are made first. -/
def makeUpwards (t : FileTree) : List String → Except IoError Unit × FileTree
  | [] => (.ok (), t)
  | p :: up => match t.makeDirectory p with
    | .ok t => (.ok (), t)
    | .error .noEntry => match t.makeUpwards up with
      | (.error e, t) => (.error e, t)
      | (.ok (), t) => match t.makeDirectory p with
        | .ok t => (.ok (), t)
        | .error e =>
          if e = .alreadyExists && t.isDirectory p then (.ok (), t) else (.error e, t)
    | .error e => if e = .alreadyExists && t.isDirectory p then (.ok (), t) else (.error e, t)

/-- Makes a directory and all above it. -/
def makeDirectories (t : FileTree) (p : String) : Except IoError Unit × FileTree :=
  if p = "" then (.ok (), t) else t.makeUpwards (p :: Path.above p)

/-- Removes a file or a link. -/
def removeFile (t : FileTree) (p : String) : Except IoError FileTree := do
  let spot ← t.walk .entry p
  match spot.place with
  | .vacant _ _ => .error .noEntry
  | .found l n =>
    if spot.dots.isSome || (spot.slash && n.isDirectory) then .error .isDirectory
    else if spot.slash then .error .notDirectory
    else if !t.alterable l.dropLast then .error .permission
    else if n.isDirectory then .error .isDirectory
    else .ok (t.erase l)

/-- Removes an empty directory. -/
def removeDirectory (t : FileTree) (p : String) : Except IoError FileTree := do
  let spot ← t.walk .entry p
  match spot.place with
  | .vacant _ _ => .error .noEntry
  | .found l n =>
    if spot.dots = some "." then .error .invalid
    else if spot.dots = some ".." then .error .notEmpty
    else if l = [] then .error .busy
    else if !t.alterable l.dropLast then .error .permission
    else if !n.isDirectory then .error .notDirectory
    else if t.hasEntries l then .error .notEmpty
    else .ok (t.erase l)

/-- Runs `f` on the entries until one fails. -/
def untilFailure (f : FileTree → Location → Except IoError Unit × FileTree) (t : FileTree) :
    List Location → Except IoError Unit × FileTree
  | [] => (.ok (), t)
  | l :: ls => match f t l with
    | (.ok (), t) => untilFailure f t ls
    | (.error e, t) => (.error e, t)

/-- Removes the entries of a directory that goes at most `depth` levels deep, in the order of their
names; the order in which a system lists them is up to it. A directory below is opened before it is
cleared, and that takes a directory above it in which names can be looked up. -/
def clearWithin : Nat → FileTree → Location → Except IoError Unit × FileTree
  | 0, t, _ => (.ok (), t)
  | depth + 1, t, l =>
    if !(t.directoryMode? l).any mayRead then (.error .permission, t)
    else
      untilFailure (fun t k => match t.node? k with
        | some (.directory _) =>
          if !t.searchable l then (.error .permission, t)
          else match clearWithin depth t k with
            | (.error e, t) => (.error e, t)
            | (.ok (), t) => if t.alterable l then (.ok (), t.erase k) else (.error .permission, t)
        | _ => if t.alterable l then (.ok (), t.erase k) else (.error .permission, t))
        t (t.entries l)

/-- Removes everything below a directory. No location is longer than the tree is large. -/
def clear (t : FileTree) (l : Location) : Except IoError Unit × FileTree :=
  t.clearWithin (t.nodes.size + 1) l

/-- Removes a directory with everything below it, or a link. Links below it are removed and
not followed. The path is walked again at the end; it may have led through the directory. -/
def removeTree (t : FileTree) (p : String) : Except IoError Unit × FileTree :=
  match t.lookupEntry p with
  | .error e => (.error e, t)
  | .ok (_, .link _) => match t.removeFile p with
    | .ok t => (.ok (), t)
    | .error e => (.error e, t)
  | .ok (_, .file _) => (.error .notDirectory, t)
  | .ok (l, .directory _) => match t.clear l with
    | (.error e, t) => (.error e, t)
    | (.ok (), t) => match t.removeDirectory p with
      | .ok t => (.ok (), t)
      | .error .noEntry => (.ok (), t)
      | .error e => (.error e, t)

/-- Finds the file at a path to write to it, and makes it if there is none. -/
def openToWrite (t : FileTree) (p : String) : Except IoError (Location × FileTree) := do
  match (← t.walk .create p).place with
  | .found _ (.directory _) => .error .isDirectory
  | .found l (.file f) => if mayWrite f.mode then .ok (l, t) else .error .permission
  | .found _ (.link _) => .error .linkLoop
  | .vacant l name =>
    if t.alterable l then .ok (l ++ [name], t.put (l ++ [name]) (.file { mode := fileMode }))
    else .error .permission

/-- Makes a file, or empties the one that is there. -/
def createFile (t : FileTree) (p : String) : Except IoError (Location × FileTree) := do
  let (l, t) ← t.openToWrite p
  .ok (l, t.changeFile l fun f => { f with bytes := .empty })

/-- Makes a file that must not be there yet. -/
def createNewFile (t : FileTree) (p : String) : Except IoError (Location × FileTree) := do
  let spot ← t.walk .entry p
  match spot.place with
  | .found _ _ => .error .alreadyExists
  | .vacant l name =>
    if spot.slash then .error .isDirectory
    else if t.alterable l then
      .ok (l ++ [name], t.put (l ++ [name]) (.file { mode := fileMode }))
    else .error .permission

/-- Opens what a path stands for. A directory can be opened and not read. -/
def openToRead (t : FileTree) (p : String) : Except IoError Stream := do
  match ← t.lookup p with
  | (_, .directory m) => if mayRead m then .ok (.failing .isDirectory) else .error .permission
  | (_, .file f) => if mayRead f.mode then .ok (.whole f.bytes) else .error .permission
  | (_, .link _) => .error .linkLoop

def readText (t : FileTree) (p : String) : Except IoError String := do
  match String.fromUTF8? (← (← t.openToRead p).readAll) with
  | some s => .ok s
  | none => .error .notText

/-- Makes a symbolic link; what it leads to need not exist. -/
def makeLink (t : FileTree) (target p : String) : Except IoError FileTree := do
  if target.toList.any (·.toNat = 0) || p.toList.any (·.toNat = 0) then throw .nulInName
  if target = "" then throw .noEntry
  if pathBound < target.utf8ByteSize then throw .nameTooLong
  let spot ← t.walk .entry p
  match spot.place with
  | .found _ _ => .error .alreadyExists
  | .vacant l name =>
    if spot.slash then .error .noEntry
    else if t.alterable l then .ok (t.put (l ++ [name]) (.link target))
    else .error .permission

/-- Gives the file or link at `source` the further name `p`. -/
def makeHardLink (t : FileTree) (source p : String) : Except IoError FileTree := do
  let old ← t.walk .entry source
  match old.place with
  | .vacant _ _ => .error .noEntry
  | .found k n =>
    if old.slash && !n.isDirectory then throw .notDirectory
    let spot ← t.walk .entry p
    match spot.place with
    | .found _ _ => .error .alreadyExists
    | .vacant l name =>
      if spot.slash then .error .noEntry
      else if !t.alterable l then .error .permission
      else match n with
        | .directory _ => .error .notPermitted
        | .file _ => .ok (t.shareFile k (l ++ [name]))
        | .link target => .ok (t.put (l ++ [name]) (.link target))

/-- Sets the permissions of what a path stands for. -/
def setMode (t : FileTree) (p : String) (mode : Nat) : Except IoError FileTree := do
  match ← t.lookup p with
  | (l, .directory _) => .ok (if l = [] then t else t.put l (.directory mode))
  | (l, .file _) => .ok (t.changeFile l fun f => { f with mode })
  | (_, .link _) => .error .linkLoop

end MolecularTools.FileTree
