import MolecularTools.Checksum.Basic
import MolecularTools.Checksum.Md5
import MolecularTools.Checksum.Sha256
import MolecularTools.Stream

/-! Digests of streams and their comparison with a checksum. -/
namespace MolecularTools

def Algorithm.hash : Algorithm → Checksum.BlockHash
  | .md5 => Checksum.Md5.hash
  | .sha256 => Checksum.Sha256.hash

namespace Checksum

/-- The lower-case hexadecimal digest of everything the stream delivers. -/
def digest (a : Algorithm) (s : Stream) : Except Failure String :=
  match s.broken with
  | some e => .error ((Failure.ofIo e).within "Failed to read data for checksum")
  | none => .ok (String.ofList (Text.hex (a.hash.ofPieces s.chunks)))

/-- Whether a digest is the expected one; the case of letters does not count. -/
def accepts (c : Checksum) (digest : String) : Bool :=
  digest.toList.map Char.toLower = c.hex.toList.map Char.toLower

end Checksum

end MolecularTools
