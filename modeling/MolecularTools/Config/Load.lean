import MolecularTools.Config.Document
import MolecularTools.Host.Basic

/-! Configurations in files. -/
namespace MolecularTools.Config

/-- Loads the configuration in the file at `p`. It must be one that can be used. -/
def load {σ : Type} (h : Host σ) (p : String) : Task σ Config := do
  let text ← (h.readText p).within ("Failed to read installer config " ++ Text.quoted p)
  match parse text with
  | .error e =>
    .fail (Failure.within { cause := .json e } ("Failed to parse installer config " ++ Text.quoted p))
  | .ok c => match c.validate with
    | .error e => .fail (.ofMessage e.text)
    | .ok () => return c

end MolecularTools.Config
