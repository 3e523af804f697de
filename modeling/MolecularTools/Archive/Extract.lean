import MolecularTools.Archive.Gzip
import MolecularTools.Archive.Member
import MolecularTools.Host.Basic
import MolecularTools.Text.Quoted

/-! Extraction of archives in files, compressed or plain. Whether an archive is compressed shows
in its first two bytes. -/
namespace MolecularTools.Archive

/-- The first bytes of compressed data. -/
def gzipMark : List UInt8 := [0x1f, 0x8b]

/-- What an archive holds once a compression is undone. The two bytes that are looked at stay
part of it. -/
def contents (s : Stream) : Except IoError Source := do
  let (mark, rest) ← s.take 2
  let all := Source.ofStream { rest with chunks := mark :: rest.chunks }
  return if mark.toList = gzipMark then Gzip.decode all.bytes else all

variable {σ : Type}

/-- Opens the archive at a path. -/
def openAt (h : Host σ) (p : String) : Task σ Source := do
  let s ← (h.openFile p).within ("Failed to open archive at " ++ Text.quoted p)
  match contents s with
  | .ok source => return source
  | .error e => .fail ((Failure.ofIo e).within ("Failed to read archive " ++ Text.quoted p))

/-- Whether a first member can be read. -/
def hasMember (s : Source) : Bool :=
  match memberAt s 0 with
  | .ok (some _) => true
  | _ => false

/-- Extracts with the help of something that unpacks a source below a path. -/
def extractor (h : Host σ) (unpack : Source → String → Task σ Unit) : Extractor σ where
  isArchive p := do
    match ← (openAt h p).outcome with
    | .ok s => return hasMember s
    | .error _ => return false
  extract p directory := do
    h.makeDirectories directory
    let s ← openAt h p
    (unpack s directory).within ("Failed to extract " ++ Text.quoted p ++ " to " ++ Text.quoted directory)

end MolecularTools.Archive
