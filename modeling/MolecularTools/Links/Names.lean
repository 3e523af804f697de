/-! Names of the two links by which a build finds an installed library. -/
namespace MolecularTools

/-- One text for the headers and one for the libraries. -/
structure LinkNames where
  headers : String
  libraries : String
deriving DecidableEq, Repr

def LinkNames.standard : LinkNames := ⟨"includelink", "liblink"⟩

end MolecularTools
