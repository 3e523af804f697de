import MolecularTools.Files.Walk

/-! Listings of everything below the root, in the order of the paths' texts. -/
namespace MolecularTools

inductive Listed where
  | directory
  | file (executable : Bool) (bytes : ByteArray)
  | link (target : String)

namespace FileTree

/-- One entry. Files and directories must be readable, and what stands in a directory can only
be looked at if the directory can be searched. -/
def list (t : FileTree) (l : Location) : Node → Except IoError (String × Listed)
  | .directory m =>
    if mayRead m && (maySearch m || !t.hasEntries l) then .ok (Path.absolute l, .directory)
    else .error .permission
  | .file f =>
    if mayRead f.mode then .ok (Path.absolute l, .file (isExecutable f.mode) f.bytes)
    else .error .permission
  | .link target => .ok (Path.absolute l, .link target)

def listing (t : FileTree) : Except IoError (List (String × Listed)) := do
  let all ← t.nodes.toList.mapM fun e => t.list e.1 e.2
  return all.mergeSort fun a b => a.1 ≤ b.1

end FileTree

end MolecularTools
