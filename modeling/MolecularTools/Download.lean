import MolecularTools.Host.Basic
import MolecularTools.Text.Quoted

/-! Downloads into files. -/
namespace MolecularTools

/-- Downloads into the file at `p`, which is made anew before anything is asked for: a failed
download leaves what had arrived, and nothing of an earlier file. -/
def downloadFile {σ : Type} (h : Host σ) (downloader : Downloader σ) (url p : String) :
    Task σ Nat := do
  let out ← (h.createFile p).within ("Failed to create download file at " ++ Text.quoted p)
  downloader url out

end MolecularTools
