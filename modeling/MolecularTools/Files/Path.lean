import MolecularTools.Text.Pieces

/-! Paths as texts: names between slashes. A leading slash starts at the root. Joining and
taking apart looks at the text alone; what a path means is decided by a file tree. -/
namespace MolecularTools.Path

/-- The names of a path in order; `.` and `..` are names. -/
def names (p : String) : List String :=
  ((Text.pieces '/' p.toList).filter fun s => !s.isEmpty).map String.ofList

def isAbsolute (p : String) : Bool := p.toList.head? = some '/'

def endsInSlash (p : String) : Bool := p.toList.getLast? = some '/'

/-- The path of `p` seen from `base`. -/
def join (base p : String) : String :=
  if isAbsolute p || base = "" then p
  else if endsInSlash base then base ++ p
  else base ++ "/" ++ p

/-- The text of a list of names from the root down. -/
def absolute (names : List String) : String := "/" ++ "/".intercalate names

/-- Drops the names `.`, which lead nowhere, except at the start of a relative path. -/
def significant (p : String) : List String :=
  match isAbsolute p, names p with
  | false, "." :: rest => "." :: rest.filter (· ≠ ".")
  | _, ns => ns.filter (· ≠ ".")

/-- The paths of all directories above `p`, the nearest first. The empty path does not
count. -/
def above (p : String) : List String :=
  let ns := significant p
  let shorter := (List.range ns.length).reverse.map ns.take
  if isAbsolute p then shorter.map absolute
  else (shorter.filter fun ns => !ns.isEmpty).map fun ns => "/".intercalate ns

end MolecularTools.Path
