import MolecularTools.Files.Path
import MolecularTools.Host.Basic
import MolecularTools.Links.Names
import MolecularTools.Text.Quoted

/-! Setting the two links. Old links and plain files make way for them; anything else stays and
stops the work before the first new link is made. -/
namespace MolecularTools

/-- The directories the links lead to. -/
structure LinkTargets where
  headers : String
  libraries : String
deriving DecidableEq, Repr

namespace LinkTargets

/-- Below an installation that was just built. -/
def ofBuild (root : String) : LinkTargets := ⟨Path.join root "include", Path.join root "lib"⟩

/-- Below an existing installation, where `lib64` goes before `lib`. -/
def ofExisting {σ : Type} (h : Host σ) (root : String) (s : σ) : LinkTargets :=
  let wide := Path.join root "lib64"
  ⟨Path.join root "include", if h.isDirectory wide s then wide else Path.join root "lib"⟩

end LinkTargets

variable {σ : Type}

/-- Clears the way for a new link. -/
def removeStale (h : Host σ) (p : String) : Task σ Unit := fun s =>
  if h.isLink p s then h.removeLink p s
  else if h.isFile p s then h.removeFile p s
  else if h.pathExists p s then
    (.error (.ofMessage (Text.quoted p ++ " exists and is not a file or symlink")), s)
  else (.ok (), s)

/-- Makes one link, and warns if it leads to no directory. -/
def makeLinkTo (h : Host σ) (p target : String) : Task σ Unit := do
  (h.makeLink target p).within ("Failed to link " ++ Text.quoted p ++ " to " ++ Text.quoted target)
  if !(← .ask (h.isDirectory p)) then
    h.warn (Text.quoted p ++ " does not resolve to a directory (" ++ Text.quoted target ++ ")")

/-- Replaces what stands at the names in a directory by links to the targets. -/
def relink (h : Host σ) (directory : String) (names : LinkNames) (targets : LinkTargets) :
    Task σ Unit := do
  let headers := Path.join directory names.headers
  let libraries := Path.join directory names.libraries
  removeStale h headers
  removeStale h libraries
  makeLinkTo h headers targets.headers
  makeLinkTo h libraries targets.libraries

end MolecularTools
