import MolecularTools.Host.Basic
import MolecularTools.Table.Output
import MolecularTools.Text.Quoted

/-! Tables in files. A file can hold several tables; each new one goes behind the others. -/
namespace MolecularTools

/-- Opens the file of a table. A dash stands for the output. -/
def openTableFile {σ : Type} (h : Host σ) (name : String) : Task σ (Writer σ) :=
  if name = "-" then pure h.output
  else (h.appendFile name).within ("Failed to open table file " ++ Text.quoted name)

end MolecularTools
