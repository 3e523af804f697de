import MolecularTools.Config.Basic
import MolecularTools.Files.Path

/-! Where the installation of a version works. -/
namespace MolecularTools

structure InstallPaths where
  workDir : String
  archive : String
  sourceDir : String
  /-- Where the built library goes. -/
  installDir : String
deriving DecidableEq, Repr

def InstallPaths.ofVersion (c : Config) (workDir version : String) : InstallPaths where
  workDir := workDir
  archive := Path.join workDir (c.archiveName version)
  sourceDir := Path.join workDir (c.sourceDirName version)
  installDir := Path.join workDir c.prefixDir

end MolecularTools
