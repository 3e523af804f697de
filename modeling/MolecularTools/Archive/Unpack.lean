import MolecularTools.Archive.Member
import MolecularTools.Files.Operations

/-! Unpacking members below a directory of a file tree. Nothing is written outside of it: a
member whose path climbs is passed over, and a directory that a link leads out of the target
stops the work. -/
namespace MolecularTools.Archive

/-- Work on a file tree; what was done before a failure stays done. -/
abbrev Unpacking := ExceptT IoError (StateM FileTree)

namespace Unpacking

/-- Changes the tree as a whole or not at all. -/
def change (f : FileTree → Except IoError FileTree) : Unpacking Unit := fun t =>
  match f t with
  | .ok t => (.ok (), t)
  | .error e => (.error e, t)

def inspect {α : Type} (f : FileTree → Except IoError α) : Unpacking α := fun t => (f t, t)

def makeDirectories (p : String) : Unpacking Unit := fun t => t.makeDirectories p

/-- Where a path leads, which must not be outside of the target. -/
def insideTarget (target p : String) : Unpacking String := do
  let real ← inspect (·.canonical p)
  let base ← inspect (·.canonical target)
  if (Path.names base).isPrefixOf (Path.names real) then return base
  else throw (malformed "trying to unpack outside of destination path")

/-- Names below a directory as a path. -/
def below (target : String) (names : List String) : String := names.foldl Path.join target

/-- The directories on the way to `names` at which nothing stands, uppermost first. -/
def missing (t : FileTree) (target : String) (names : List String) : List (List String) :=
  let upwards := (List.range (names.length + 1)).reverse.map names.take
  (upwards.takeWhile fun ns => !(t.lookupEntry (below target ns)).isOk).reverse

/-- Makes directories, each inside the target. -/
def makeEach (target : String) : List (List String) → Unpacking Unit
  | [] => pure ()
  | ns :: rest => do
    let _ ← insideTarget target (below target ns.dropLast)
    makeDirectories (below target ns)
    makeEach target rest

/-- Sets the permissions that a header states; where it states none, they stay. -/
def setMode (m : Member) (p : String) : Unpacking Unit :=
  match m.header.mode? with
  | some mode => change (·.setMode p (mode % 0o1000))
  | none => pure ()

/-- Makes a directory; one that is there is as good. -/
def makeDirectory (p : String) : Unpacking Unit := fun t =>
  match t.makeDirectory p with
  | .ok t => (.ok (), t)
  | .error e => match e, t.lookupEntry p with
    | .alreadyExists, .ok (_, .directory _) => (.ok (), t)
    | e, _ => (.error e, t)

/-- Does `f` again after making way, where something stood in its way. -/
def replacing {α : Type} (p : String) (f : FileTree → Except IoError (α × FileTree)) :
    Unpacking α := fun t =>
  match f t with
  | .ok (a, t) => (.ok a, t)
  | .error .alreadyExists => match t.removeFile p with
    | .error e => (.error e, t)
    | .ok t => match f t with
      | .ok (a, t) => (.ok a, t)
      | .error e => (.error e, t)
  | .error e => (.error e, t)

/-- Writes the content of a member to a new file. What can be read of it is kept. -/
def writeFile (s : Source) (m : Member) (p : String) : Unpacking Unit := do
  let l ← replacing p (·.createNewFile p)
  change fun t => .ok (t.append l (s.content m.start m.size))
  if s.copyable m.start m.size < m.size then throw (malformed "failed to write entire file")
  setMode m p

def linkTarget (m : Member) : Unpacking String :=
  match m.linkPath with
  | none => throw (malformed "link without a name")
  | some b => if b.size = 0 then throw (malformed "empty link") else pure (Text.lossy b)

/-- Unpacks a member to a path below the real target. -/
def place (s : Source) (m : Member) (base p : String) : Unpacking Unit := do
  match m.kind with
  | .settings => pure ()
  | .directory =>
    makeDirectory p
    setMode m p
  | .file => writeFile s m p
  | .symbolicLink =>
    let target ← linkTarget m
    replacing p fun t => (t.makeLink target p).map ((), ·)
  | .hardLink =>
    let source := Path.join base (← linkTarget m)
    let _ ← insideTarget base source
    change (·.makeHardLink source p)

/-- The names of a member's path, or none if it climbs. -/
def names? (m : Member) : Option (List String) :=
  let ns := (Path.names (Text.lossy m.path)).filter (· ≠ ".")
  if ".." ∈ ns then none else some ns

/-- Unpacks one member. Without a name there is nothing to do. -/
def unpackMember (s : Source) (target : String) (m : Member) : Unpacking Unit := do
  match names? m with
  | none => pure ()
  | some [] => pure ()
  | some ns =>
    makeEach target (missing (← get) target ns.dropLast)
    let base ← insideTarget target (below target ns.dropLast)
    place s m base (below target ns)

def unpackEach (s : Source) (target : String) : List Member → Unpacking Unit
  | [] => pure ()
  | m :: ms => do
    unpackMember s target m
    unpackEach s target ms

/-- The order in which directories are unpacked: what lies deeper comes first. -/
def deeperFirst (ds : List Member) : List Member :=
  ds.mergeSort fun a b => b.path.toList ≤ a.path.toList

/-- Unpacks the members from a place on. Directories come last, so that their permissions do
not hinder what goes into them. -/
def unpackFrom (s : Source) (target : String) : Nat → List Member → Nat → Unpacking Unit
  | 0, _, _ => throw (malformed "unexpected end of archive")
  | fuel + 1, directories, i => do
    match memberAt s i with
    | .error e => throw e
    | .ok none => unpackEach s target (deeperFirst directories.reverse)
    | .ok (some (m, next)) =>
      if m.isDelayed then unpackFrom s target fuel (m :: directories) next
      else do
        unpackMember s target m
        unpackFrom s target fuel directories next

/-- Unpacks all members. Each takes a block at least. -/
def unpackAll (s : Source) (directory : String) : Unpacking Unit := do
  if !((← get).lookupEntry directory).isOk then makeDirectories directory
  let t ← get
  let target := match t.canonical directory with
    | .ok p => p
    | .error _ => directory
  unpackFrom s target (s.bytes.size / blockSize + 2) [] 0

/-- Unpacks all members. Whatever stops the work is reported as a failure of the archive. -/
def unpack (s : Source) (directory : String) : Unpacking Unit := fun t =>
  match unpackAll s directory t with
  | (.ok (), t) => (.ok (), t)
  | (.error e, t) => (.error (malformed e.text), t)

end Unpacking

end MolecularTools.Archive
