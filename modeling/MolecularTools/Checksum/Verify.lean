import MolecularTools.Checksum.Digest
import MolecularTools.Host.Basic
import MolecularTools.Text.Quoted

/-! Verification of files. -/
namespace MolecularTools

/-- Whether the file at `p` has the checksum. -/
def Checksum.verifyFile {σ : Type} (h : Host σ) (c : Checksum) (p : String) : Task σ Bool := do
  let data ← (h.openFile p).within
    ("Failed to open " ++ Text.quoted p ++ " for checksum verification")
  return c.accepts (← .ofExcept (digest c.algorithm data))

end MolecularTools
