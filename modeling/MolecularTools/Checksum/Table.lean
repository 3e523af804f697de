import MolecularTools.Checksum.Basic
import Std.Data.ExtTreeMap

/-! Tables of known checksums by version, in the order of the versions. -/
namespace MolecularTools

abbrev ChecksumTable := Std.ExtTreeMap String Checksum

namespace ChecksumTable

def ofList (entries : List (String × Checksum)) : ChecksumTable :=
  entries.foldl (fun t e => t.insert e.1 e.2) ∅

/-- The checksum of exactly this version. -/
def lookup (t : ChecksumTable) (version : String) : Option Checksum := t[version]?

end ChecksumTable

end MolecularTools
