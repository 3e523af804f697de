import MolecularTools.Archive.Unpack
import MolecularTools.Machine.Basic

/-! Unpacking on a machine. -/
namespace MolecularTools.Machine

def unpack (s : Archive.Source) (directory : String) : Task Machine Unit :=
  stepwise fun t => Archive.Unpacking.unpack s directory t

end MolecularTools.Machine
